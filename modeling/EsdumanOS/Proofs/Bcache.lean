import EsdumanOS.Bcache
import Mathlib.Logic.Relation

/-!
# The block cache is a plain map

The calls come down to moves on one slot: a dirty one is written to its device (`WriteMove`), a
clean one exchanged (`QuietMove`), data accepted into one (`AcceptMove`). A clean slot holds what
the device holds, a dirty one what was last accepted (`CacheInv`).
-/

namespace EsdumanOS

open Lib Relation Function

variable {r : Option ℕ × Bcache}

def Holds (b : Bcache) (i dev sector : ℕ) : Prop :=
  (b.cache i).isValid = true ∧ (b.cache i).dev = dev ∧ (b.cache i).sector = sector

def view (disk₀ : ℕ → ℕ → Sector) (log : List CacheEvent) (dev sector : ℕ) : Sector :=
  (latest log dev sector).getD (disk₀ dev sector)

/-- Each device write in the log carries the data last accepted before it. -/
def Faithful : List CacheEvent → Prop
  | [] => True
  | .accept _ _ _ :: l => Faithful l
  | .devWrite d s v _ :: l => latest l d s = some v ∧ Faithful l

/-- A clean slot holds what the device holds, a dirty one what was last accepted. -/
structure CacheInv (disk₀ : ℕ → ℕ → Sector) (b : Bcache) : Prop where
  bound : ∀ i, (b.cache i).isValid = true → i < bcacheSize
  dirtyValid : ∀ i, (b.cache i).isDirty = true → (b.cache i).isValid = true
  unique : ∀ i j, Holds b i (b.cache j).dev (b.cache j).sector → (b.cache j).isValid = true → i = j
  clean : ∀ i, (b.cache i).isValid = true → (b.cache i).isDirty = false →
    (b.cache i).data = b.disk (b.cache i).dev (b.cache i).sector
  dirty : ∀ i, (b.cache i).isDirty = true →
    latest b.log (b.cache i).dev (b.cache i).sector = some (b.cache i).data
  disk : ∀ d s, (∀ i, Holds b i d s → (b.cache i).isDirty = false) →
    b.disk d s = view disk₀ b.log d s
  pending : ∀ d s v, pending b.log d s = some v → ∃ i, Holds b i d s ∧ (b.cache i).isDirty = true
  faithful : Faithful b.log

def Tidy (b : Bcache) : Prop :=
  ∀ i, (b.cache i).isDirty = true → (b.cache i).isValid = true

/-- The slots differ in the time of their last access at most. -/
structure SameCache (b b' : Bcache) : Prop where
  node : ∀ i, (b'.cache i).dev = (b.cache i).dev ∧ (b'.cache i).sector = (b.cache i).sector ∧
    (b'.cache i).data = (b.cache i).data ∧ (b'.cache i).isValid = (b.cache i).isValid ∧
    (b'.cache i).isDirty = (b.cache i).isDirty
  disk : b'.disk = b.disk
  log : b'.log = b.log

section Moves

variable {disk₀ : ℕ → ℕ → Sector} {b b' : Bcache} {io : Io} {i j d s : ℕ} {v : Sector}

inductive WriteMove (b : Bcache) : Bcache → Prop
  | refused (i : ℕ) (st : Errno) (hd : (b.cache i).isDirty = true) (hst : st ≠ .ok) :
      WriteMove b { b with
        reqs := b.reqs + 1
        log := .devWrite (b.cache i).dev (b.cache i).sector (b.cache i).data st :: b.log }
  | served (i : ℕ) (hd : (b.cache i).isDirty = true) :
      WriteMove b { b.setNode i { b.cache i with isDirty := false } with
        dirtyCount := b.dirtyCount - 1
        disk := update b.disk (b.cache i).dev
          (update (b.disk (b.cache i).dev) (b.cache i).sector (b.cache i).data)
        reqs := b.reqs + 1
        log := .devWrite (b.cache i).dev (b.cache i).sector (b.cache i).data .ok :: b.log }

/-- A clean slot becomes empty, or a sector that no slot caches, read from its device. -/
inductive QuietMove (b : Bcache) : Bcache → Prop
  | same {b' : Bcache} (h : SameCache b b') : QuietMove b b'
  | write {b' : Bcache} (h : WriteMove b b') : QuietMove b b'
  | swap (i : ℕ) (n : CacheNode) (hd : (b.cache i).isDirty = false) (hn : n.isDirty = false)
      (hvalid : n.isValid = true → i < bcacheSize ∧ n.data = b.disk n.dev n.sector ∧
        ∀ j < bcacheSize, ¬ Holds b j n.dev n.sector) : QuietMove b (b.setNode i n)

def accepted (io : Io) (b : Bcache) (i d s : ℕ) (v : Sector) : Bcache :=
  { markDirty io (b.setNode i { b.cache i with
      dev := d, sector := s, data := v, isValid := true, lastAccess := b.ticks }) i with
    log := .accept d s v :: b.log }

inductive AcceptMove (io : Io) (d s : ℕ) (v : Sector) (b : Bcache) : Bcache → Prop
  | into (i : ℕ) (hi : i < bcacheSize) (hslot : Holds b i d s ∨
      (b.cache i).isDirty = false ∧ ∀ j < bcacheSize, ¬ Holds b j d s) :
      AcceptMove io d s v b (accepted io b i d s v)

lemma setNode_apply (n : CacheNode) :
    (b.setNode i n).cache j = if j = i then n else b.cache j := by
  simp [update_apply]

lemma update_disk_apply (disk : ℕ → ℕ → Sector) (d' s' : ℕ) :
    update disk d (update (disk d) s v) d' s' =
      if d' = d ∧ s' = s then v else disk d' s' := by
  by_cases hd : d' = d
  · subst hd
    simp [update_apply]
  · simp [hd]

/-- What has not been written yet is what was accepted last. -/
lemma latest_of_pending : ∀ {l : List CacheEvent}, pending l d s = some v → latest l d s = some v
  | [], h => by simp [pending] at h
  | .accept d' s' v' :: l, h => by
    simp only [pending, latest] at h ⊢
    split_ifs at h ⊢ with hk
    · exact h
    · exact latest_of_pending h
  | .devWrite d' s' v' st :: l, h => by
    simp only [pending, latest] at h ⊢
    split_ifs at h
    exact latest_of_pending h

lemma CacheInv.holds_unique (h : CacheInv disk₀ b) (hi : Holds b i d s) (hj : Holds b j d s) :
    i = j := by
  obtain ⟨hv, rfl, rfl⟩ := hj
  exact h.unique i j hi hv

lemma CacheInv.data_eq (h : CacheInv disk₀ b) (hi : Holds b i d s) :
    (b.cache i).data = view disk₀ b.log d s := by
  have hi' := hi
  obtain ⟨hv, rfl, rfl⟩ := hi'
  rcases hd : (b.cache i).isDirty
  · rw [h.clean i hv hd]
    refine h.disk _ _ fun j hj => ?_
    rw [h.holds_unique hj hi]
    exact hd
  · rw [view, h.dirty i hd, Option.getD_some]

lemma WriteMove.holds (h : WriteMove b b') : Holds b' j d s ↔ Holds b j d s := by
  cases h with
  | refused => rfl
  | served i => by_cases hj : j = i <;> simp [Holds, hj]

lemma WriteMove.inv (h : CacheInv disk₀ b) (hm : WriteMove b b') : CacheInv disk₀ b' := by
  have hh := fun j d s => @WriteMove.holds b b' j d s hm
  obtain ⟨hb, hdv, hu, hc, hdi, hdk, hp, hf⟩ := h
  cases hm with
  | refused i st hd hst =>
    refine ⟨hb, hdv, hu, hc, hdi, hdk, fun d s v hv => ?_, hdi i hd, hf⟩
    simp only [EsdumanOS.pending, hst, false_and, if_false] at hv
    exact hp d s v hv
  | served i hd =>
    have hl := hdi i hd
    constructor
    · grind [setNode_apply]
    · grind [setNode_apply]
    · grind [setNode_apply]
    · intro j hj hjc
      have hne := hu j i
      grind [setNode_apply, update_disk_apply, Holds]
    · grind [setNode_apply, latest]
    · intro d s hds
      grind [setNode_apply, update_disk_apply, latest, view, Holds]
    · intro d s v hv
      grind [setNode_apply, EsdumanOS.pending, Holds, latest_of_pending]
    · exact ⟨hl, hf⟩

lemma QuietMove.tidy (h : Tidy b) (hm : QuietMove b b') : Tidy b' := by
  intro j
  cases hm with
  | same hs => grind [Tidy, hs.node j]
  | write hw =>
    cases hw with
    | refused => exact h j
    | served i => grind [Tidy, setNode_apply]
  | swap i n => grind [Tidy, setNode_apply]

lemma QuietMove.inv (h : CacheInv disk₀ b) (hm : QuietMove b b') : CacheInv disk₀ b' := by
  cases hm with
  | write hw => exact hw.inv h
  | same hs =>
    obtain ⟨hno, hdi, hl⟩ := hs
    obtain ⟨hb, hdv, hu, hc, hdr, hsame, hp, hf⟩ := h
    have hh : ∀ j d s, Holds b' j d s ↔ Holds b j d s := by grind [Holds]
    constructor
    · grind
    · grind
    · grind
    · grind
    · grind
    · intro d s hds
      rw [hdi, hl]
      exact hsame d s fun i hi => (hno i).2.2.2.2 ▸ hds i ((hh i d s).2 hi)
    · grind
    · rwa [hl]
  | swap i n hd hn hvalid =>
    obtain ⟨hb, hdv, hu, hc, hdr, hdi, hp, hf⟩ := h
    have ho : ∀ j d s, j ≠ i → (Holds (b.setNode i n) j d s ↔ Holds b j d s) := by
      grind [Holds, setNode_apply]
    constructor
    · grind [setNode_apply]
    · grind [setNode_apply]
    · intro j k hj hk
      have hjk := hu j k
      grind [setNode_apply, Holds]
    · grind [setNode_apply, Bcache.setNode_disk]
    · grind [setNode_apply, Bcache.setNode_log]
    · intro d s hds
      refine hdi d s fun j hj => ?_
      by_cases hji : j = i
      · rw [hji, hd]
      · have hc := hds j ((ho j d s hji).2 hj)
        rwa [setNode_apply, if_neg hji] at hc
    · intro d s v hv
      obtain ⟨j, hj, hjd⟩ := hp d s v hv
      have hji : j ≠ i := fun hji => by simp [hji, hd] at hjd
      exact ⟨j, (ho j d s hji).2 hj, by rwa [setNode_apply, if_neg hji]⟩
    · exact hf

lemma markDirty_cache : (markDirty io b i).cache =
    update b.cache i { b.cache i with isDirty := true } := by
  unfold markDirty
  by_cases hd : (b.cache i).isDirty = true
  · rw [if_pos hd, ← hd, update_eq_self]
  · rw [if_neg hd]
    rfl

lemma markDirty_disk : (markDirty io b i).disk = b.disk := by
  unfold markDirty
  split_ifs <;> rfl

lemma accepted_cache : (accepted io b i d s v).cache j = if j = i then
    ⟨d, s, v, b.ticks, true, true⟩ else b.cache j := by
  by_cases hj : j = i <;> simp [accepted, markDirty_cache, hj]

lemma accepted_disk : (accepted io b i d s v).disk = b.disk := markDirty_disk

lemma AcceptMove.inv (h : CacheInv disk₀ b) (hm : AcceptMove io d s v b b') :
    CacheInv disk₀ b' := by
  obtain ⟨i, hi, hslot⟩ := hm
  have ho : ∀ j, Holds b j d s → j = i := fun j hj =>
    hslot.elim (h.holds_unique hj) fun hn => absurd hj (hn.2 j (h.bound j hj.1))
  obtain ⟨hb, hdv, hu, hc, hdi, hd, hp, hf⟩ := h
  have hof : ∀ j d' s', j ≠ i → (Holds (accepted io b i d s v) j d' s' ↔ Holds b j d' s') := by
    grind [Holds, accepted_cache]
  have hs : Holds (accepted io b i d s v) i d s := by simp [Holds, accepted_cache]
  have hl : (accepted io b i d s v).log = .accept d s v :: b.log := rfl
  constructor
  · grind [accepted_cache]
  · grind [accepted_cache]
  · intro j k hj hk
    have hjk := hu j k
    grind [accepted_cache, Holds]
  · grind [accepted_cache, accepted_disk]
  · grind [accepted_cache, latest, Holds]
  · intro d' s' hds
    have hne : ¬ (d = d' ∧ s = s') := by
      rintro ⟨rfl, rfl⟩
      simpa [accepted_cache] using hds i hs
    rw [accepted_disk, view, hl, latest, if_neg hne]
    refine hd d' s' fun j hj => ?_
    have hcl := hds j
    grind [accepted_cache, Holds]
  · intro d' s' v' hv
    rw [hl, EsdumanOS.pending] at hv
    split_ifs at hv with hk
    · obtain ⟨rfl, rfl⟩ := hk
      exact ⟨i, hs, by simp [accepted_cache]⟩
    · obtain ⟨j, hj, hjd⟩ := hp d' s' v' hv
      have hji : j ≠ i := by grind [Holds]
      exact ⟨j, (hof j d' s' hji).2 hj, by rwa [accepted_cache, if_neg hji]⟩
  · exact hf

end Moves

section Calls

variable {disk₀ : ℕ → ℕ → Sector} {b b' : Bcache} {io : Io} {i d s : ℕ} {v : Sector}

lemma quiet_of_writes (h : ReflTransGen WriteMove b b') : ReflTransGen QuietMove b b' :=
  h.lift id fun _ _ => .write

/-- A slot is clean after a write back exactly if the device took the data. -/
lemma writeBack_moves (hd : (b.cache i).isDirty = true) :
    ReflTransGen WriteMove b (writeBack io b i).2 ∧
      (((writeBack io b i).2.cache i).isDirty = true ↔ (writeBack io b i).1 ≠ .ok) ∧
      ∀ j, j ≠ i → ((writeBack io b i).2.cache j).isDirty = (b.cache j).isDirty := by
  unfold writeBack blockdevWrite
  by_cases hc : blockdevCheckWrite io (b.cache i).dev (b.cache i).sector true = .ok
  · by_cases hst : io.status b.reqs = .ok
    · have hm := WriteMove.served i hd
      simp only [hc, hst, ne_eq, not_true_eq_false, if_true, if_false, markClean, hd, Bool.not_true,
        Bool.false_eq_true] at hm ⊢
      exact ⟨.single hm, by simp, fun j hj => by simp [hj]⟩
    · have hm := WriteMove.refused i _ hd hst
      simp only [hc, hst, ne_eq, not_true_eq_false, if_false]
      exact ⟨.single hm, by simp [hd], by simp⟩
  · simp [hc, hd, ReflTransGen.refl]

structure SlotFreed (b : Bcache) (r : Option ℕ × Bcache) : Prop where
  moves : ReflTransGen WriteMove b r.2
  slot : ∀ i, r.1 = some i → i < bcacheSize ∧ (r.2.cache i).isDirty = false

lemma evictDirty_freed {io : Io} : ∀ (attempts : ℕ) (tried : ℕ → Bool) {b : Bcache},
    (∀ i < bcacheSize, (b.cache i).isDirty = true) → SlotFreed b (evictDirty io attempts tried b)
  | 0, _, b, _ => ⟨.refl, fun i hi => by simp [evictDirty] at hi⟩
  | attempts + 1, tried, b, ha => by
    unfold evictDirty
    rcases hb : bestIdx (fun i => !tried i) (slotAge b) bcacheSize with _ | oldest
    · exact ⟨.refl, fun i hi => by simp at hi⟩
    obtain ⟨hlt, -⟩ := bestIdx_some hb
    obtain ⟨hm, hs, ho⟩ := @writeBack_moves b io oldest (ha oldest hlt)
    dsimp only
    split_ifs with hok
    · exact ⟨hm, by grind⟩
    · have ih := @evictDirty_freed io attempts (update tried oldest true)
        (writeBack io b oldest).2 (by grind)
      exact ⟨hm.trans ih.moves, ih.slot⟩

/-- A slot is given out only when it is clean, after device writes alone. -/
lemma bcacheGetLruSlot_freed (h : Tidy b) : SlotFreed b (bcacheGetLruSlot io b) := by
  unfold bcacheGetLruSlot
  rcases he : firstIdx (fun i => !(b.cache i).isValid) bcacheSize with _ | k
  · rcases hc : bestIdx (fun i => !(b.cache i).isDirty) (slotAge b) bcacheSize with _ | k
    · refine evictDirty_freed bcacheSize _ fun i hi => ?_
      simpa using bestIdx_eq_none hc i hi
    · obtain ⟨hlt, hk⟩ := bestIdx_some hc
      exact ⟨.refl, by grind⟩
  · obtain ⟨hk, hlt, -⟩ := firstIdx_eq_some.1 he
    have hd := h k
    exact ⟨.refl, by grind⟩

lemma SlotFreed.quiet (h : SlotFreed b r) :
    ReflTransGen QuietMove b r.2 :=
  quiet_of_writes h.moves

lemma SlotFreed.holds {j : ℕ} (h : SlotFreed b r) :
    Holds r.2 j d s ↔ Holds b j d s := by
  have hm := h.moves
  generalize r.2 = b' at hm
  induction hm with
  | refl => rfl
  | tail _ hstep ih => exact hstep.holds.trans ih

lemma findSlot_some (h : findSlot b d s = some i) : i < bcacheSize ∧ Holds b i d s := by
  obtain ⟨hi, hlt, -⟩ := firstIdx_eq_some.1 h
  simp only [Bool.and_eq_true, decide_eq_true_eq] at hi
  exact ⟨hlt, hi.1.1, hi.1.2, hi.2⟩

lemma findSlot_none (h : findSlot b d s = none) (j : ℕ) (hj : j < bcacheSize) :
    ¬ Holds b j d s := by
  rintro ⟨hv, hd, hs⟩
  have := firstIdx_eq_none.1 h j hj
  simp [hv, hd, hs] at this

lemma tick_moves (b : Bcache) : ReflTransGen QuietMove b b.tick :=
  .single (.same ⟨fun _ => ⟨rfl, rfl, rfl, rfl, rfl⟩, rfl, rfl⟩)

lemma markClean_of_clean (h : (b.cache i).isDirty = false) : markClean b i = b := by
  simp [markClean, h]

lemma flushSlot_moves {st : ℕ × Bcache} :
    ReflTransGen QuietMove st.2 (flushSlot io st i).2 := by
  unfold flushSlot
  split_ifs with hd
  · simp only [Bool.and_eq_true] at hd
    exact quiet_of_writes (writeBack_moves hd.2).1
  · exact .refl

lemma foldl_moves {round : ℕ × Bcache → ℕ → ℕ × Bcache}
    (hr : ∀ st i, ReflTransGen QuietMove st.2 (round st i).2) (is : List ℕ) (st : ℕ × Bcache) :
    ReflTransGen QuietMove st.2 (is.foldl round st).2 := by
  induction is generalizing st with
  | nil => exact .refl
  | cons i is ih => exact (hr st i).trans (ih _)

lemma bcacheFlush_moves (io : Io) (b : Bcache) :
    ReflTransGen QuietMove b (bcacheFlush io b).2 := by
  unfold bcacheFlush
  dsimp only
  exact @foldl_moves (flushSlot io) (fun _ _ => flushSlot_moves) _ (0, b)

lemma flushDevSlot_moves {st : ℕ × Bcache} :
    ReflTransGen QuietMove st.2 (flushDevSlot io d st i).2 := by
  unfold flushDevSlot
  -- a slot is clean when it is dropped
  have hdr : ∀ {b'}, (b'.cache i).isDirty = false →
      QuietMove b' (b'.setNode i { b'.cache i with isValid := false, dev := 0 }) :=
    fun hc => .swap i _ hc hc (by simp)
  split_ifs with hs hd
  · exact .refl
  · obtain ⟨hm, hse, -⟩ := @writeBack_moves st.2 io i hd
    have hq := quiet_of_writes hm
    dsimp only
    split_ifs with hok
    · exact hq
    · exact hq.tail (hdr (by grind))
  · exact .single (hdr (by simpa using hd))

lemma bcacheFlushDev_moves (io : Io) (b : Bcache) (d : ℕ) :
    ReflTransGen QuietMove b (bcacheFlushDev io b d).2 := by
  unfold bcacheFlushDev
  split_ifs
  · exact .refl
  · dsimp only
    exact @foldl_moves (flushDevSlot io d) (fun _ _ => flushDevSlot_moves) _ (0, b)

lemma bcacheFlushIfDue_moves (io : Io) (b : Bcache) :
    ReflTransGen QuietMove b (bcacheFlushIfDue io b) := by
  unfold bcacheFlushIfDue
  split_ifs
  · exact bcacheFlush_moves io b
  · exact .refl

lemma blockdevCheckRead_ok {lba : ℕ} {bufOk : Bool} (h : blockdevCheckRead io d lba bufOk = .ok) :
    blockdevCheckRead io d lba true = .ok := by
  unfold blockdevCheckRead at h ⊢
  split_ifs at h ⊢ <;> simp_all

lemma blockdevCheckWrite_null {lba : ℕ} : blockdevCheckWrite io d lba false ≠ .ok := by
  unfold blockdevCheckWrite
  split_ifs with hc
  · exact hc
  all_goals simp_all

lemma bcacheReadSector_moves (h : Tidy b) (buf : Option Sector) :
    ReflTransGen QuietMove b (bcacheReadSector io b d s buf).2.2 ∧
      ((bcacheReadSector io b d s buf).1 = .ok →
        ∃ i, Holds (bcacheReadSector io b d s buf).2.2 i d s ∧
        (bcacheReadSector io b d s buf).2.1 =
          some ((bcacheReadSector io b d s buf).2.2.cache i).data) := by
  have ht := tick_moves b
  unfold bcacheReadSector
  dsimp only
  split_ifs with hch hs
  · exact ⟨.refl, fun hok => absurd hok hch⟩
  · exact ⟨.refl, fun hok => absurd hok (by decide)⟩
  rcases hfi : findSlot b.tick d s with _ | i
  · have hf := @bcacheGetLruSlot_freed b.tick io h
    rcases hl : bcacheGetLruSlot io b.tick with ⟨_ | slot, b1⟩
    · rw [hl] at hf
      exact ⟨ht.trans hf.quiet, fun hok => absurd hok (by simp)⟩
    · rw [hl] at hf
      obtain ⟨hi, hc⟩ := hf.slot slot rfl
      have hm : ∀ j < bcacheSize, ¬ Holds b1 j d s := fun j hj hh =>
        findSlot_none hfi j hj (hf.holds.1 hh)
      have hq : ReflTransGen QuietMove b { b1 with reqs := b1.reqs + 1 } :=
        (ht.trans hf.quiet).tail (.same ⟨fun _ => ⟨rfl, rfl, rfl, rfl, rfl⟩, rfl, rfl⟩)
      simp only [blockdevRead, blockdevCheckRead_ok (not_not.1 hch), ne_eq, not_true_eq_false,
        if_false]
      split_ifs with hres
      · rw [markClean_of_clean (by simpa using hc)]
        exact ⟨hq.tail (.swap slot _ hc hc fun _ => ⟨hi, rfl, hm⟩),
          fun _ => ⟨slot, by simp [Holds], by simp⟩⟩
      · exact ⟨hq.tail (.swap slot _ hc hc (by simp)), fun hok => absurd hok hres⟩
  · obtain ⟨-, hi⟩ := findSlot_some hfi
    refine ⟨ht.tail (.same ⟨fun j => ?_, rfl, rfl⟩), fun _ => ⟨i, ?_, by simp⟩⟩
    · by_cases hj : j = i <;> simp [hj]
    · simpa [Holds] using hi

lemma bcacheWriteSector_moves (h : Tidy b) (buf : Option Sector) :
    ((bcacheWriteSector io b d s buf).1 ≠ .ok ∧
      ReflTransGen QuietMove b (bcacheWriteSector io b d s buf).2) ∨
    ∃ v b1 b2, buf = some v ∧ (bcacheWriteSector io b d s buf).1 = .ok ∧
      ReflTransGen QuietMove b b1 ∧ AcceptMove io d s v b1 b2 ∧
      ReflTransGen QuietMove b2 (bcacheWriteSector io b d s buf).2 := by
  have ht := tick_moves b
  have hfl : ∀ b i v,
      ReflTransGen QuietMove (accepted io b i d s v) (acceptSector io b i d s v) := by
    intro b i v
    unfold acceptSector
    dsimp only
    split_ifs
    · exact bcacheFlush_moves io _
    · exact .refl
  unfold bcacheWriteSector
  rcases buf with _ | v
  · exact .inl ⟨blockdevCheckWrite_null, .refl⟩
  dsimp only
  split_ifs with hc hs
  · exact .inl ⟨hc, .refl⟩
  · exact .inl ⟨by simp, .refl⟩
  rcases hfi : findSlot b.tick d s with _ | i
  · have hf := @bcacheGetLruSlot_freed b.tick io h
    rcases hl : bcacheGetLruSlot io b.tick with ⟨_ | slot, b1⟩
    · rw [hl] at hf
      exact .inl ⟨by simp, ht.trans hf.quiet⟩
    · rw [hl] at hf
      obtain ⟨hi, hcl⟩ := hf.slot slot rfl
      refine .inr ⟨v, b1, _, rfl, rfl, ht.trans hf.quiet, .into slot hi (.inr ⟨hcl, ?_⟩), hfl _ _ _⟩
      exact fun j hj hh => findSlot_none hfi j hj (hf.holds.1 hh)
  · obtain ⟨hi, hh⟩ := findSlot_some hfi
    exact .inr ⟨v, b.tick, _, rfl, rfl, ht, .into i hi (.inl hh), hfl _ _ _⟩

structure Quiet (disk₀ : ℕ → ℕ → Sector) (b b' : Bcache) : Prop where
  inv : CacheInv disk₀ b'
  latest : ∀ d s, latest b'.log d s = latest b.log d s

/-- Moves that accept nothing keep the invariant and what was last accepted. -/
lemma quiet_of_moves (h : CacheInv disk₀ b) (hm : ReflTransGen QuietMove b b') :
    Quiet disk₀ b b' := by
  induction hm with
  | refl => exact ⟨h, fun _ _ => rfl⟩
  | @tail b1 b2 _ hst ih =>
    refine ⟨hst.inv ih.inv, fun d s => Eq.trans ?_ (ih.latest d s)⟩
    cases hst with
    | same hs => rw [hs.log]
    | write hw => cases hw <;> rfl
    | swap => rfl

lemma Quiet.view (h : Quiet disk₀ b b') (d s : ℕ) :
    view disk₀ b'.log d s = view disk₀ b.log d s := by
  rw [EsdumanOS.view, EsdumanOS.view, h.latest]

lemma bcacheFlush_quiet (h : CacheInv disk₀ b) : Quiet disk₀ b (bcacheFlush io b).2 :=
  quiet_of_moves h (bcacheFlush_moves io b)

lemma bcacheReadSector_spec (h : CacheInv disk₀ b) (buf : Option Sector) :
    Quiet disk₀ b (bcacheReadSector io b d s buf).2.2 ∧
      ((bcacheReadSector io b d s buf).1 = .ok →
        (bcacheReadSector io b d s buf).2.1 = some (view disk₀ b.log d s)) := by
  obtain ⟨hm, hd⟩ := @bcacheReadSector_moves b io d s h.dirtyValid buf
  have hq := quiet_of_moves h hm
  refine ⟨hq, fun hok => ?_⟩
  obtain ⟨i, hi, heq⟩ := hd hok
  rw [heq, hq.inv.data_eq hi, hq.view]

lemma bcacheWriteSector_spec (h : CacheInv disk₀ b) (buf : Option Sector) :
    ((bcacheWriteSector io b d s buf).1 ≠ .ok ∧ Quiet disk₀ b (bcacheWriteSector io b d s buf).2) ∨
    ∃ v, buf = some v ∧ (bcacheWriteSector io b d s buf).1 = .ok ∧
      CacheInv disk₀ (bcacheWriteSector io b d s buf).2 ∧
      ∀ d' s', latest (bcacheWriteSector io b d s buf).2.log d' s' =
        if d = d' ∧ s = s' then some v else latest b.log d' s' := by
  rcases @bcacheWriteSector_moves b io d s h.dirtyValid buf with
    ⟨he, hm⟩ | ⟨v, b1, b2, hv, hok, hm1, ha, hm2⟩
  · exact .inl ⟨he, quiet_of_moves h hm⟩
  · have hq := quiet_of_moves h hm1
    have hq2 := quiet_of_moves (ha.inv hq.inv) hm2
    refine .inr ⟨v, hv, hok, hq2.inv, fun d' s' => ?_⟩
    rw [hq2.latest, ← hq.latest]
    cases ha
    rfl

end Calls

section Run

variable {disk₀ : ℕ → ℕ → Sector} {b : Bcache}

lemma bcacheInit_inv (disk₀ : ℕ → ℕ → Sector) : CacheInv disk₀ (bcacheInit disk₀) := by
  constructor <;> simp [bcacheInit, Holds, view, latest, pending, Faithful]

lemma CacheInv.requests (h : CacheInv disk₀ b) (n : ℕ) : CacheInv disk₀ { b with reqs := n } :=
  QuietMove.inv h (.same ⟨fun _ => ⟨rfl, rfl, rfl, rfl, rfl⟩, rfl, rfl⟩)

lemma bcacheStep_spec (h : CacheInv disk₀ b) (call : Io × CacheOp) :
    CacheInv disk₀ (bcacheStep b call) ∧
      ∀ d s, view disk₀ (bcacheStep b call).log d s = plainStep (view disk₀ b.log) b call d s := by
  have hqu : ∀ {b'}, Quiet disk₀ b b' →
      CacheInv disk₀ b' ∧ ∀ d s, view disk₀ b'.log d s = view disk₀ b.log d s :=
    fun hq => ⟨hq.inv, hq.view⟩
  obtain ⟨io, op⟩ := call
  cases op with
  | read dev sector buf => exact hqu (bcacheReadSector_spec h buf).1
  | flush => exact hqu (bcacheFlush_quiet h)
  | flushDev dev => exact hqu (quiet_of_moves h (bcacheFlushDev_moves io b dev))
  | flushIfDue => exact hqu (quiet_of_moves h (bcacheFlushIfDue_moves io b))
  | write dev sector buf =>
    rcases @bcacheWriteSector_spec disk₀ b io dev sector h buf with
      ⟨he, hq⟩ | ⟨v, rfl, hok, hinv, hl⟩
    · refine ⟨hq.inv, fun d s => ?_⟩
      rw [bcacheStep, hq.view]
      cases buf with
      | none => rfl
      | some v => rw [plainStep, if_neg he]
    · refine ⟨hinv, fun d s => ?_⟩
      rw [bcacheStep, plainStep, if_pos hok, view, hl]
      by_cases hd : dev = d
      · subst hd
        by_cases hs : sector = s
        · subst hs
          simp
        · simp [hs, Ne.symm hs, view]
      · simp [hd, Ne.symm hd, view]

lemma bcacheRun_spec : ∀ (calls : List (Io × CacheOp)) {b : Bcache} {m : ℕ → ℕ → Sector},
    CacheInv disk₀ b → (∀ d s, view disk₀ b.log d s = m d s) →
    CacheInv disk₀ (bcacheRun b calls) ∧
      ∀ d s, view disk₀ (bcacheRun b calls).log d s = plainRun m b calls d s
  | [], _, _, h, hm => ⟨h, hm⟩
  | call :: calls, b, m, h, hm => by
    obtain ⟨hinv, hv⟩ := bcacheStep_spec h call
    have hm' : view disk₀ b.log = m := funext fun d => funext fun s => hm d s
    rw [hm'] at hv
    exact bcacheRun_spec calls hinv hv

lemma Faithful.latest_eq {l1 : List CacheEvent} {st : Errno} {d s : ℕ} {v : Sector} :
    ∀ (l2 : List CacheEvent), Faithful (l2 ++ .devWrite d s v st :: l1) → latest l1 d s = some v
  | [], h => h.1
  | .accept _ _ _ :: l2, h => Faithful.latest_eq l2 h
  | .devWrite _ _ _ _ :: l2, h => Faithful.latest_eq l2 h.2

/-- A read returns the last accepted data, or the device's own; what is accepted stays dirty until
it is written; a device write carries the data last accepted. -/
structure BcacheCoherent (disk₀ : ℕ → ℕ → Sector) (calls : List (Io × CacheOp)) : Prop where
  read : ∀ io dev sector buf,
    (bcacheReadSector io (bcacheRun (bcacheInit disk₀) calls) dev sector buf).1 = .ok →
      (bcacheReadSector io (bcacheRun (bcacheInit disk₀) calls) dev sector buf).2.1 =
        some (plainRun disk₀ (bcacheInit disk₀) calls dev sector)
  accepted : ∀ dev sector,
    (latest (bcacheRun (bcacheInit disk₀) calls).log dev sector).getD (disk₀ dev sector) =
      plainRun disk₀ (bcacheInit disk₀) calls dev sector
  kept : ∀ dev sector data,
    pending (bcacheRun (bcacheInit disk₀) calls).log dev sector = some data →
      ∃ i < bcacheSize, Holds (bcacheRun (bcacheInit disk₀) calls) i dev sector ∧
        ((bcacheRun (bcacheInit disk₀) calls).cache i).isDirty = true ∧
        ((bcacheRun (bcacheInit disk₀) calls).cache i).data = data
  placed : ∀ dev sector data st later earlier,
    (bcacheRun (bcacheInit disk₀) calls).log = later ++ .devWrite dev sector data st :: earlier →
      latest earlier dev sector = some data

/-- The cache is coherent after every run, whatever the devices fail to do. -/
theorem bcacheRun_coherent (disk₀ : ℕ → ℕ → Sector) (calls : List (Io × CacheOp)) :
    BcacheCoherent disk₀ calls := by
  obtain ⟨hinv, hview⟩ := bcacheRun_spec calls (bcacheInit_inv disk₀) fun _ _ => rfl
  refine ⟨fun io dev sector buf hok => ?_, hview, fun dev sector data hp => ?_, ?_⟩
  · rw [(bcacheReadSector_spec hinv buf).2 hok, hview]
    rfl
  · obtain ⟨i, hi, hdirty⟩ := hinv.pending dev sector data hp
    refine ⟨i, hinv.bound i hi.1, hi, hdirty, Option.some.inj ?_⟩
    rw [← latest_of_pending hp, ← hinv.dirty i hdirty, hi.2.1, hi.2.2]
  · intro dev sector data st later earlier hlog
    exact Faithful.latest_eq later (hlog ▸ hinv.faithful)

end Run

end EsdumanOS
