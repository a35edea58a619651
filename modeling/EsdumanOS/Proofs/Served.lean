import EsdumanOS.Remount
import EsdumanOS.Proofs.Drain

/-!
# The cache over a device that serves every request

Such a cache is a map of sectors that never refuses (`Cached`), and after a flush the device holds
that map (`Settled`). It stays so while sectors are only read, or written with what they hold.
-/

namespace EsdumanOS

open Lib List Function

variable {disk₀ : ℕ → ℕ → Sector} {b : Bcache} {io : Io} {root n s i : ℕ} {V : ℕ → Sector}
  {v : Sector}

lemma Serves.checkRead (h : Serves io root n) (hs : s < n) :
    blockdevCheckRead io root s true = .ok := by
  simp [blockdevCheckRead, blockdevCheck, h.present, h.sectorCount, h.hasRead, hs]

lemma Serves.checkWrite (h : Serves io root n) (hs : s < n) :
    blockdevCheckWrite io root s true = .ok := by
  simp [blockdevCheckWrite, blockdevCheck, h.present, h.sectorCount, h.hasWrite, hs]

def DirtyOn (root n : ℕ) (b : Bcache) : Prop :=
  ∀ x ∈ DirtyData b, x.1 = root ∧ x.2.1 < n

lemma DirtyOn.slot (h : DirtyOn root n b) (hi : (b.cache i).isDirty = true) :
    (b.cache i).dev = root ∧ (b.cache i).sector < n :=
  h _ (mem_dirtyData hi)

lemma Serves.writeBack (hio : Serves io root n) (h : DirtyOn root n b)
    (hi : (b.cache i).isDirty = true) : (writeBack io b i).1 = .ok := by
  obtain ⟨hd, hs⟩ := h.slot hi
  have hc := hio.checkWrite hs
  simp [EsdumanOS.writeBack, blockdevWrite, hd, hc, hio.status]

lemma Serves.evict (hi : Serves io root n) (h : DirtyOn root n b)
    (ha : ∀ i < bcacheSize, (b.cache i).isDirty = true) {tried : ℕ → Bool}
    (ht : ∀ i, tried i = false) (attempts : ℕ) :
    ∃ i b1, evictDirty io (attempts + 1) tried b = (some i, b1) := by
  unfold evictDirty
  rcases hb : bestIdx (fun i => !tried i) (slotAge b) bcacheSize with _ | oldest
  · have hn := bestIdx_eq_none hb 0 (by decide)
    simp [ht] at hn
  · have hok := hi.writeBack h (ha oldest (bestIdx_some hb).1)
    exact ⟨oldest, (EsdumanOS.writeBack io b oldest).2, by simp only [hok, if_true]⟩

lemma Serves.lruSlot (hio : Serves io root n) (h : DirtyOn root n b) :
    ∃ i b1, bcacheGetLruSlot io b = (some i, b1) := by
  unfold bcacheGetLruSlot
  rcases he : firstIdx (fun i => !(b.cache i).isValid) bcacheSize with _ | k
  · rcases hc : bestIdx (fun i => !(b.cache i).isDirty) (slotAge b) bcacheSize with _ | k
    · refine hio.evict h (fun i hi => ?_) (fun _ => rfl) 63
      simpa using bestIdx_eq_none hc i hi
    · exact ⟨k, b, rfl⟩
  · exact ⟨k, b, rfl⟩

lemma Serves.readSector (hi : Serves io root n) (h : DirtyOn root n b) (hs : s < n)
    (v : Sector) : (bcacheReadSector io b root s (some v)).1 = .ok := by
  have hc := hi.checkRead hs
  obtain ⟨k, b1, hl⟩ := hi.lruSlot (b := b.tick) h
  unfold bcacheReadSector
  simp only [Option.isSome_some, hc, hi.sectorSize, ne_eq, not_true_eq_false, if_false]
  rcases findSlot b.tick root s with _ | i
  · simp [hl, blockdevRead, hc, hi.status]
  · rfl

lemma Serves.writeSector (hi : Serves io root n) (h : DirtyOn root n b) (hs : s < n)
    (v : Sector) : (bcacheWriteSector io b root s (some v)).1 = .ok := by
  have hc := hi.checkWrite hs
  obtain ⟨k, b1, hl⟩ := hi.lruSlot (b := b.tick) h
  unfold bcacheWriteSector
  simp only [hc, hi.sectorSize, ne_eq, not_true_eq_false, if_false]
  rcases findSlot b.tick root s with _ | i
  · simp [hl]
  · rfl

lemma Serves.flushSlots (hio : Serves io root n) :
    ∀ (is : List ℕ) {st : ℕ × Bcache}, Tidy st.2 → DirtyOn root n st.2 →
      ∀ i, ((is.foldl (flushSlot io) st).2.cache i).isDirty = true →
        (st.2.cache i).isDirty = true ∧ i ∉ is
  | [], _, _, _, _, hi => ⟨hi, by simp⟩
  | j :: is, st, ht, hon, i, hi => by
    rw [foldl_cons] at hi
    by_cases hj : (st.2.cache j).isDirty = true
    · have hr : (flushSlot io st j).2 = (EsdumanOS.writeBack io st.2 j).2 := by
        simp [flushSlot, hj, ht j hj]
      have hdr := @writeBack_drains st.2 io j ht hj
      obtain ⟨-, hs, ho⟩ := @writeBack_moves st.2 io j hj
      obtain ⟨hd, hn⟩ := Serves.flushSlots hio is (by rw [hr]; exact hdr.tidy)
        (by rw [hr]; exact fun x hx => hon x (hdr.dirty hx)) i hi
      rw [hr] at hd
      have hij : i ≠ j := by
        rintro rfl
        exact hs.1 hd (hio.writeBack hon hj)
      exact ⟨ho i hij ▸ hd, by simp [hij, hn]⟩
    · have hr : flushSlot io st j = st := by simp [flushSlot, hj]
      rw [hr] at hi
      obtain ⟨hd, hn⟩ := Serves.flushSlots hio is ht hon i hi
      have hij : i ≠ j := by
        rintro rfl
        exact hj hd
      exact ⟨hd, by simp [hij, hn]⟩

structure Cached (disk₀ : ℕ → ℕ → Sector) (root n : ℕ) (V : ℕ → Sector) (b : Bcache) : Prop where
  inv : CacheInv disk₀ b
  dirty : DirtyOn root n b
  sees : ∀ s, view disk₀ b.log root s = V s

structure Settled (disk₀ : ℕ → ℕ → Sector) (root n : ℕ) (V : ℕ → Sector) (b : Bcache) : Prop
    extends Cached disk₀ root n V b where
  disk : ∀ s, b.disk root s = V s

lemma reset_settled (b : Bcache) (root n : ℕ) :
    Settled b.disk root n (b.disk root) b.reset := by
  refine ⟨⟨?_, ?_, fun s => rfl⟩, fun s => rfl⟩
  · exact (bcacheInit_inv b.disk).requests b.reqs
  · rintro x ⟨i, hi, -⟩
    exact absurd hi (by simp [Bcache.reset, bcacheInit])

lemma Cached.dirty_eq (h : Cached disk₀ root n V b) {w : Sector}
    (hmem : (root, s, w) ∈ DirtyData b) : w = V s := by
  obtain ⟨i, hi, heq⟩ := hmem
  simp only [Prod.mk.injEq] at heq
  obtain ⟨hd, hs, rfl⟩ := heq
  have hl := h.inv.dirty i hi
  rw [← hd, ← hs] at hl
  rw [← h.sees, view, hl, Option.getD_some]

lemma Settled.read (h : Settled disk₀ root n V b) (hi : Serves io root n) (hs : s < n)
    (v : Sector) : (bcacheReadSector io b root s (some v)).1 = .ok ∧
      (bcacheReadSector io b root s (some v)).2.1 = some (V s) ∧
      Settled disk₀ root n V (bcacheReadSector io b root s (some v)).2.2 := by
  have hok := hi.readSector h.dirty hs v
  obtain ⟨hq, hda⟩ := @bcacheReadSector_spec disk₀ b io root s h.inv (some v)
  have hd := @bcacheReadSector_drains b io root s h.inv.dirtyValid (some v)
  refine ⟨hok, by rw [hda hok, h.sees], ⟨hq.inv, fun x hx => h.dirty x (hd.dirty hx), ?_⟩, ?_⟩
  · intro t
    rw [hq.view, h.sees]
  · intro t
    rcases hd.disk root t with heq | hmem
    · rw [heq, h.disk]
    · exact h.dirty_eq hmem

lemma Cached.write (h : Cached disk₀ root n V b) (hi : Serves io root n) (hs : s < n)
    (v : Sector) : (bcacheWriteSector io b root s (some v)).1 = .ok ∧
      Cached disk₀ root n (update V s v) (bcacheWriteSector io b root s (some v)).2 := by
  have hok := hi.writeSector h.dirty hs v
  have ha := @bcacheWriteSector_accepts b io root s h.inv.dirtyValid v
  rcases @bcacheWriteSector_spec disk₀ b io root s h.inv (some v) with
    ⟨hne, -⟩ | ⟨w, hw, -, hinv, hl⟩
  · exact absurd hok hne
  · cases hw
    refine ⟨hok, hinv, fun x hx => ?_, fun t => ?_⟩
    · rcases ha.dirty hx with rfl | hx
      · exact ⟨rfl, hs⟩
      · exact h.dirty x hx
    · rw [view, hl]
      by_cases ht : t = s
      · subst ht
        simp
      · rw [if_neg fun hk => ht hk.2.symm, update_of_ne ht, ← h.sees, view]

lemma Settled.rewrite (h : Settled disk₀ root n V b) (hi : Serves io root n) (hs : s < n)
    (hv : v = V s) : Settled disk₀ root n V (bcacheWriteSector io b root s (some v)).2 := by
  obtain ⟨-, hc⟩ := h.toCached.write hi hs v
  rw [hv, update_eq_self, ← hv] at hc
  refine ⟨hc, fun t => ?_⟩
  have ha := @bcacheWriteSector_accepts b io root s h.inv.dirtyValid v
  rcases ha.disk root t with heq | hmem | hmem
  · rw [heq, h.disk]
  · simp only [Prod.mk.injEq, true_and] at hmem
    rw [hmem.2, hmem.1, hv]
  · exact h.dirty_eq hmem

lemma Cached.flush (h : Cached disk₀ root n V b) (hio : Serves io root n) :
    Settled disk₀ root n V (bcacheFlush io b).2 := by
  have hq := @bcacheFlush_quiet disk₀ b io h.inv
  have hd := @bcacheFlush_drains b io h.inv.dirtyValid
  have hc : ∀ i, ((bcacheFlush io b).2.cache i).isDirty = false := by
    intro i
    by_contra hi
    simp only [Bool.not_eq_false] at hi
    have hlt := hq.inv.bound i (hq.inv.dirtyValid i hi)
    unfold bcacheFlush at hi
    dsimp only at hi
    exact (@Serves.flushSlots io root n hio (range bcacheSize) (0, b) h.inv.dirtyValid h.dirty
      i hi).2 (mem_range.2 hlt)
  refine ⟨⟨hq.inv, fun x hx => h.dirty x (hd.dirty hx), fun t => ?_⟩, fun t => ?_⟩
  · rw [hq.view, h.sees]
  · rw [hq.inv.disk root t fun i _ => hc i, hq.view, h.sees]

end EsdumanOS
