import Mathlib.Tactic

/-!
# Ledgers

A pool hands out resources and counts the holders of each. Its ledger says who they are: a bag of
resources with one holder, and a bag of shared ones, once for every holder. `held` is the bag of an
indexed table.
-/

namespace Lib

open Function Multiset

section Held

variable {β : Type*} {n v : ℕ} {g g' : ℕ → Option β} {x : β}

/-- What the indices below `n` hold. -/
@[irreducible] def held (n : ℕ) (g : ℕ → Option β) : Multiset β := (range n).filterMap g

/-- What the indices other than `v` hold. -/
@[irreducible] def heldOff (n v : ℕ) (g : ℕ → Option β) : Multiset β :=
  ((range n).erase v).filterMap g

lemma held_eq_coe (n : ℕ) (g : ℕ → Option β) :
    held n g = ((List.range n).filterMap g : List β) := by
  unfold held
  rfl

lemma mem_held : x ∈ held n g ↔ ∃ v < n, g v = some x := by
  simp [held, mem_filterMap]

lemma held_some (hv : v < n) (hg : g v = some x) : held n g = x ::ₘ heldOff n v g := by
  rw [held, heldOff, ← cons_erase (mem_range.2 hv),
    filterMap_cons_some g v _ hg, cons_erase (mem_range.2 hv)]

lemma held_none (hg : g v = none) : held n g = heldOff n v g := by
  by_cases hv : v ∈ range n
  · rw [held, heldOff, ← cons_erase hv, filterMap_cons_none v _ hg, cons_erase hv]
  · rw [held, heldOff, erase_of_notMem hv]

lemma filterMap_congr {s : Multiset ℕ} (h : ∀ w ∈ s, g w = g' w) :
    s.filterMap g = s.filterMap g' := by
  induction s using Quotient.inductionOn with
  | h l => exact congrArg _ (List.filterMap_congr h)

lemma held_congr (h : ∀ w < n, g w = g' w) : held n g = held n g' := by
  unfold held
  exact filterMap_congr fun w hw => h w (mem_range.1 hw)

lemma mem_erase_range {w : ℕ} : w ∈ (range n).erase v ↔ w ≠ v ∧ w < n := by
  rw [Multiset.Nodup.mem_erase_iff (nodup_range n), mem_range]

lemma heldOff_congr (h : ∀ w < n, w ≠ v → g w = g' w) : heldOff n v g = heldOff n v g' := by
  unfold heldOff
  exact filterMap_congr fun w hw =>
    h w (mem_erase_range.1 hw).2 (mem_erase_range.1 hw).1

lemma mem_heldOff : x ∈ heldOff n v g ↔ ∃ w < n, w ≠ v ∧ g w = some x := by
  unfold heldOff
  simp only [mem_filterMap, mem_erase_range]
  exact ⟨fun ⟨w, ⟨hne, hw⟩, hg⟩ => ⟨w, hw, hne, hg⟩, fun ⟨w, hw, hne, hg⟩ => ⟨w, ⟨hne, hw⟩, hg⟩⟩

lemma held_eq_zero (h : ∀ w < n, g w = none) : held n g = 0 :=
  eq_zero_of_forall_notMem fun _ hx => by
    obtain ⟨w, hw, hg⟩ := mem_held.1 hx
    exact absurd ((h w hw).symm.trans hg) (by simp)

lemma count_held [DecidableEq β] (x : β) :
    ∀ n, (held n g).count x = (List.range n).countP fun v => g v = some x
  | 0 => by simp [held]
  | n + 1 => by
    rw [held, range_succ, List.range_succ, List.countP_append, ← count_held x n]
    cases hg : g n with
    | none => simp [held, hg]
    | some y =>
      rw [filterMap_cons_some g n _ hg, count_cons]
      simp [held, hg, eq_comm]

lemma held_nodup_inj (h : (held n g).Nodup) {w : ℕ} (hv : v < n) (hw : w < n)
    (hg : g v = some x) (hgw : g w = some x) : v = w := by
  by_contra hne
  rw [held_some hv hg] at h
  exact (nodup_cons.1 h).1 (mem_heldOff.2 ⟨w, hw, Ne.symm hne, hgw⟩)

end Held

section Ledger

variable {ι : Type*} [DecidableEq ι] {pool : ι → Prop} {refs refs' : ι → ℕ}
  {sole shared : Multiset ι} {x : ι}

/-- The counts of a pool are those of the two bags, and no resource is in both. -/
structure Ledger (pool : ι → Prop) (refs : ι → ℕ) (sole shared : Multiset ι) : Prop where
  mem_pool : ∀ x ∈ sole + shared, pool x
  count : ∀ x, pool x → refs x = (sole + shared).count x
  nodup : sole.Nodup
  apart : ∀ x ∈ sole, x ∉ shared

namespace Ledger

section

variable (h : Ledger pool refs sole shared)
include h

lemma notMem_of_zero (hx : refs x = 0) : x ∉ sole + shared := by
  intro hmem
  have hp := count_pos.2 hmem
  rw [← h.count x (h.mem_pool x hmem)] at hp
  omega

lemma refs_sole (hx : x ∈ sole) : refs x = 1 := by
  rw [h.count x (h.mem_pool x (mem_add.2 (Or.inl hx))), count_add,
    count_eq_one_of_mem h.nodup hx, count_eq_zero.2 (h.apart x hx)]

lemma refs_shared (hx : x ∈ shared) : refs x = shared.count x := by
  have hn : x ∉ sole := fun hs => h.apart x hs hx
  rw [h.count x (h.mem_pool x (mem_add.2 (Or.inr hx))), count_add, count_eq_zero.2 hn, zero_add]

lemma take_sole (hp : pool x) (hx : refs x = 0) :
    Ledger pool (update refs x 1) (x ::ₘ sole) shared := by
  have hn := h.notMem_of_zero hx
  refine ⟨?_, ?_, ?_, ?_⟩
  · intro y hy
    rw [cons_add, mem_cons] at hy
    rcases hy with rfl | hy
    · exact hp
    · exact h.mem_pool y hy
  · intro y hy
    rw [cons_add, count_cons, ← h.count y hy, update_apply]
    split_ifs with hyx
    · rw [hyx, hx]
    · rfl
  · exact nodup_cons.2 ⟨fun hs => hn (mem_add.2 (Or.inl hs)), h.nodup⟩
  · intro y hy
    rcases mem_cons.1 hy with rfl | hy
    · exact fun hs => hn (mem_add.2 (Or.inr hs))
    · exact h.apart y hy

lemma take_shared (hp : pool x) (hx : x ∉ sole) :
    Ledger pool (update refs x (refs x + 1)) sole (x ::ₘ shared) := by
  refine ⟨?_, ?_, h.nodup, ?_⟩
  · intro y hy
    rw [add_cons, mem_cons] at hy
    rcases hy with rfl | hy
    · exact hp
    · exact h.mem_pool y hy
  · intro y hy
    rw [add_cons, count_cons, ← h.count y hy, update_apply]
    split_ifs with hyx
    · rw [hyx]
    · rfl
  · intro y hy hmem
    rcases mem_cons.1 hmem with rfl | hmem
    · exact hx hy
    · exact h.apart y hy hmem

end

lemma drop_sole (h : Ledger pool refs (x ::ₘ sole) shared) :
    Ledger pool (update refs x 0) sole shared := by
  have hx := nodup_cons.1 h.nodup
  have hs := h.apart x (mem_cons_self x sole)
  refine ⟨fun y hy => ?_, fun y hy => ?_, hx.2, fun y hy => ?_⟩
  · exact h.mem_pool y (by rw [cons_add]; exact mem_cons_of_mem hy)
  · have hc := h.count y hy
    rw [cons_add, count_cons] at hc
    rw [update_apply]
    split_ifs with hyx
    · rw [hyx, count_add, count_eq_zero.2 hx.1, count_eq_zero.2 hs]
    · rw [hc, if_neg hyx, add_zero]
  · exact h.apart y (mem_cons_of_mem hy)

lemma drop_shared (h : Ledger pool refs sole (x ::ₘ shared)) :
    Ledger pool (update refs x (refs x - 1)) sole shared := by
  refine ⟨fun y hy => ?_, fun y hy => ?_, h.nodup, fun y hy hmem => ?_⟩
  · exact h.mem_pool y (by rw [add_cons]; exact mem_cons_of_mem hy)
  · have hc := h.count y hy
    rw [add_cons, count_cons] at hc
    rw [update_apply]
    split_ifs with hyx
    · subst hyx
      rw [hc, if_pos rfl, Nat.add_sub_cancel]
    · rw [hc, if_neg hyx, add_zero]
  · exact h.apart y hy (mem_cons_of_mem hmem)

end Ledger

end Ledger

end Lib
