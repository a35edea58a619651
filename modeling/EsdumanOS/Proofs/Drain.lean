import EsdumanOS.Proofs.Bcache

/-!
# Reading and flushing hand out nothing new

A call that accepts no sector writes to the devices only what was dirty before it (`Drains`). One
that accepts a sector adds it to the log, leaves nothing dirty and writes nothing but that sector
and what was dirty before (`Accepts`).
-/

namespace EsdumanOS

open Lib Relation List

variable {b b' : Bcache} {io : Io} {i d s : ℕ} {v : Sector}

def DirtyData (b : Bcache) : Set (ℕ × ℕ × Sector) :=
  { x | ∃ i, (b.cache i).isDirty = true ∧
    x = ((b.cache i).dev, (b.cache i).sector, (b.cache i).data) }

structure Drains (b b' : Bcache) : Prop where
  tidy : Tidy b'
  dirty : DirtyData b' ⊆ DirtyData b
  log : ∃ l, b'.log = l ++ b.log ∧
    ∀ ev ∈ l, ∃ x ∈ DirtyData b, ∃ st, ev = .devWrite x.1 x.2.1 x.2.2 st
  disk : ∀ d s, b'.disk d s = b.disk d s ∨ (d, s, b'.disk d s) ∈ DirtyData b

lemma Drains.refl (h : Tidy b) : Drains b b :=
  ⟨h, subset_rfl, ⟨[], rfl, by simp⟩, fun _ _ => .inl rfl⟩

lemma Drains.trans {b'' : Bcache} (h : Drains b b') (h' : Drains b' b'') : Drains b b'' := by
  obtain ⟨l, hl, he⟩ := h.log
  obtain ⟨l', hl', he'⟩ := h'.log
  refine ⟨h'.tidy, h'.dirty.trans h.dirty, ⟨l' ++ l, by rw [hl', hl, append_assoc], ?_⟩, ?_⟩
  · intro ev hmem
    rcases mem_append.1 hmem with hmem | hmem
    · obtain ⟨x, hx, st, rfl⟩ := he' ev hmem
      exact ⟨x, h.dirty hx, st, rfl⟩
    · exact he ev hmem
  · intro d s
    rcases h'.disk d s with heq | hmem
    · rw [heq]
      exact h.disk d s
    · exact .inr (h.dirty hmem)

lemma Drains.suffix (h : Drains b b') : b.log <:+ b'.log := by
  obtain ⟨l, hl, _⟩ := h.log
  exact ⟨l, hl.symm⟩

lemma Drains.log_eq (h : Drains b b') (hc : DirtyData b = ∅) : b'.log = b.log := by
  obtain ⟨l, hl, he⟩ := h.log
  rcases l with _ | ⟨ev, l⟩
  · exact hl
  · obtain ⟨x, hx, -⟩ := he ev mem_cons_self
    rw [hc] at hx
    exact absurd hx (Set.notMem_empty x)

lemma mem_dirtyData (hi : (b.cache i).isDirty = true) :
    ((b.cache i).dev, (b.cache i).sector, (b.cache i).data) ∈ DirtyData b :=
  ⟨i, hi, rfl⟩

section

variable (h : Tidy b)
include h

lemma QuietMove.drains (hm : QuietMove b b') : Drains b b' := by
  have ht := hm.tidy h
  cases hm with
  | same hs =>
    refine ⟨ht, ?_, ⟨[], hs.log, by simp⟩, fun d s => .inl (by rw [hs.disk])⟩
    rintro x ⟨i, hi, rfl⟩
    obtain ⟨hd, hs, hv, -, hdi⟩ := hs.node i
    exact ⟨i, hdi ▸ hi, by rw [hd, hs, hv]⟩
  | write hw =>
    have he : ∀ {i : ℕ}, (b.cache i).isDirty = true → ∀ st, ∀ ev ∈
        [CacheEvent.devWrite (b.cache i).dev (b.cache i).sector (b.cache i).data st],
        ∃ x ∈ DirtyData b, ∃ st, ev = .devWrite x.1 x.2.1 x.2.2 st :=
      fun hd st ev hmem => ⟨_, mem_dirtyData hd, st, mem_singleton.1 hmem⟩
    cases hw with
    | refused i st hd => exact ⟨ht, subset_rfl, ⟨_, rfl, he hd st⟩, fun _ _ => .inl rfl⟩
    | served i hd =>
      refine ⟨ht, ?_, ⟨_, rfl, he hd .ok⟩, fun d s => ?_⟩
      · rintro x ⟨j, hj, rfl⟩
        grind [setNode_apply, mem_dirtyData]
      · dsimp only
        rw [update_disk_apply]
        split_ifs with hds
        · obtain ⟨rfl, rfl⟩ := hds
          exact .inr (mem_dirtyData hd)
        · exact .inl rfl
  | swap i n hd hn =>
    refine ⟨ht, ?_, ⟨[], rfl, by simp⟩, fun _ _ => .inl rfl⟩
    rintro x ⟨j, hj, rfl⟩
    grind [setNode_apply, mem_dirtyData]

lemma drains_of_moves (hm : ReflTransGen QuietMove b b') : Drains b b' := by
  induction hm with
  | refl => exact .refl h
  | tail _ hstep ih => exact ih.trans (hstep.drains ih.tidy)

lemma writeBack_drains (hd : (b.cache i).isDirty = true) : Drains b (writeBack io b i).2 :=
  drains_of_moves h (quiet_of_writes (writeBack_moves hd).1)

lemma bcacheReadSector_drains (buf : Option Sector) :
    Drains b (bcacheReadSector io b d s buf).2.2 :=
  drains_of_moves h (bcacheReadSector_moves h buf).1

lemma bcacheFlush_drains : Drains b (bcacheFlush io b).2 :=
  drains_of_moves h (bcacheFlush_moves io b)

lemma bcacheFlushDev_drains : Drains b (bcacheFlushDev io b d).2 :=
  drains_of_moves h (bcacheFlushDev_moves io b d)

lemma bcacheFlushIfDue_drains : Drains b (bcacheFlushIfDue io b) :=
  drains_of_moves h (bcacheFlushIfDue_moves io b)

end

/-- Besides what was dirty, at most the given sector becomes dirty or reaches its device. -/
structure Accepts (d s : ℕ) (v : Sector) (b b' : Bcache) : Prop where
  dirty : DirtyData b' ⊆ insert (d, s, v) (DirtyData b)
  disk : ∀ d' s', b'.disk d' s' = b.disk d' s' ∨
    (d', s', b'.disk d' s') ∈ insert (d, s, v) (DirtyData b)

lemma Drains.accepts (h : Drains b b') : Accepts d s v b b' :=
  ⟨h.dirty.trans (Set.subset_insert _ _), fun d' s' => (h.disk d' s').imp_right (.inr ·)⟩

lemma AcceptMove.tidy (h : Tidy b) (hm : AcceptMove io d s v b b') : Tidy b' := by
  obtain ⟨i⟩ := hm
  intro j
  grind [Tidy, accepted_cache]

lemma AcceptMove.accepts (hm : AcceptMove io d s v b b') : Accepts d s v b b' := by
  obtain ⟨i⟩ := hm
  refine ⟨?_, fun d' s' => .inl (by rw [accepted_disk])⟩
  rintro x ⟨j, hj, rfl⟩
  rw [accepted_cache] at hj ⊢
  split_ifs at hj ⊢
  · exact .inl rfl
  · exact .inr (mem_dirtyData hj)

lemma Accepts.between {b1 b2 : Bcache} (h : Drains b b1) (ha : Accepts d s v b1 b2)
    (h' : Drains b2 b') : Accepts d s v b b' := by
  have hd : DirtyData b2 ⊆ insert (d, s, v) (DirtyData b) :=
    ha.dirty.trans (Set.insert_subset_insert h.dirty)
  refine ⟨h'.dirty.trans hd, fun d' s' => ?_⟩
  rcases h'.disk d' s' with heq | hmem
  · rw [heq]
    rcases ha.disk d' s' with heq | hmem
    · rw [heq]
      exact (h.disk d' s').imp_right (.inr ·)
    · exact .inr (Set.insert_subset_insert h.dirty hmem)
  · exact .inr (hd hmem)

lemma bcacheWriteSector_accepts (h : Tidy b) (data : Sector) :
    Accepts d s data b (bcacheWriteSector io b d s (some data)).2 := by
  rcases @bcacheWriteSector_moves b io d s h (some data) with
    ⟨-, hm⟩ | ⟨v, b1, b2, hv, -, hm1, ha, hm2⟩
  · exact (drains_of_moves h hm).accepts
  · cases hv
    have hd := drains_of_moves h hm1
    exact .between hd ha.accepts (drains_of_moves (ha.tidy hd.tidy) hm2)

lemma bcacheWriteSector_log (h : Tidy b) (data : Sector) :
    Tidy (bcacheWriteSector io b d s (some data)).2 ∧
    (((bcacheWriteSector io b d s (some data)).1 ≠ .ok ∧
        Drains b (bcacheWriteSector io b d s (some data)).2) ∨
      ((bcacheWriteSector io b d s (some data)).1 = .ok ∧ ∃ b1 l, Drains b b1 ∧
        (bcacheWriteSector io b d s (some data)).2.log = l ++ .accept d s data :: b1.log)) := by
  rcases @bcacheWriteSector_moves b io d s h (some data) with
    ⟨he, hm⟩ | ⟨v, b1, b2, hv, hok, hm1, ha, hm2⟩
  · have hd := drains_of_moves h hm
    exact ⟨hd.tidy, .inl ⟨he, hd⟩⟩
  · cases hv
    have hd1 := drains_of_moves h hm1
    have hd2 := drains_of_moves (ha.tidy hd1.tidy) hm2
    obtain ⟨l, hl, -⟩ := hd2.log
    refine ⟨hd2.tidy, .inr ⟨hok, b1, l, hd1, ?_⟩⟩
    cases ha
    exact hl

lemma bcacheWriteSector_suffix (h : Tidy b) (data : Sector) :
    b.log <:+ (bcacheWriteSector io b d s (some data)).2.log := by
  rcases (@bcacheWriteSector_log b io d s h data).2 with ⟨-, hd⟩ | ⟨-, b1, l, hd, hl⟩
  · exact hd.suffix
  · rw [hl]
    exact hd.suffix.trans ((suffix_cons _ _).trans (suffix_append _ _))

end EsdumanOS
