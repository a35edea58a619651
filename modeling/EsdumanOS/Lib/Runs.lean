import Mathlib.Tactic

/-!
# Runs and searches

A run is a left fold of a step function. `StepsMeet` says that every step meets a condition on the
state it starts from, and `foldl_induction` is the invariant rule. The second half is two search
loops over an indexed table.
-/

namespace Lib

open List

section Run

variable {σ ι : Type*}

/-- Every step of the run from `s` meets `ok` in the state it starts from. -/
def StepsMeet (step : σ → ι → σ) (ok : σ → ι → Prop) : σ → List ι → Prop
  | _, [] => True
  | s, i :: is => ok s i ∧ StepsMeet step ok (step s i) is

instance StepsMeet.decidable {step : σ → ι → σ} {ok : σ → ι → Prop} [∀ s i, Decidable (ok s i)] :
    ∀ (s : σ) (is : List ι), Decidable (StepsMeet step ok s is)
  | _, [] => .isTrue trivial
  | s, i :: is =>
    have : Decidable (StepsMeet step ok (step s i) is) := StepsMeet.decidable (step s i) is
    inferInstanceAs (Decidable (ok s i ∧ StepsMeet step ok (step s i) is))

lemma foldl_induction {step : σ → ι → σ} {ok : σ → ι → Prop} {inv : σ → Prop}
    (hst : ∀ s i, inv s → ok s i → inv (step s i)) :
    ∀ (is : List ι) {s : σ}, inv s → StepsMeet step ok s is → inv (is.foldl step s)
  | [], _, hs, _ => hs
  | i :: is, s, hs, h => foldl_induction hst is (hst s i hs h.1) h.2

lemma foldl_invariant {step : σ → ι → σ} {inv : σ → Prop} (hst : ∀ s i, inv s → inv (step s i)) :
    ∀ (is : List ι) {s : σ}, inv s → inv (is.foldl step s)
  | [], _, hs => hs
  | i :: is, s, hs => foldl_invariant hst is (hst s i hs)

lemma foldl_invariant_mem {step : σ → ι → σ} {inv : σ → Prop} :
    ∀ (is : List ι) {s : σ}, (∀ s, ∀ i ∈ is, inv s → inv (step s i)) → inv s →
      inv (is.foldl step s)
  | [], _, _, hs => hs
  | i :: is, s, hst, hs =>
    foldl_invariant_mem is (fun s j hj => hst s j (mem_cons_of_mem i hj))
      (hst s i mem_cons_self hs)

lemma StepsMeet.append {step : σ → ι → σ} {ok : σ → ι → Prop} :
    ∀ (is : List ι) {js : List ι} {s : σ}, StepsMeet step ok s (is ++ js) ↔
      StepsMeet step ok s is ∧ StepsMeet step ok (is.foldl step s) js
  | [], js, s => by simp [StepsMeet]
  | i :: is, js, s => by
    simp only [cons_append, StepsMeet, foldl_cons, and_assoc, StepsMeet.append is]

lemma StepsMeet.imp {step : σ → ι → σ} {ok ok' : σ → ι → Prop} (h : ∀ s i, ok s i → ok' s i) :
    ∀ {is : List ι} {s : σ}, StepsMeet step ok s is → StepsMeet step ok' s is
  | [], _, _ => trivial
  | i :: _, s, hs => ⟨h s i hs.1, StepsMeet.imp h hs.2⟩

lemma StepsMeet.conclude {step : σ → ι → σ} {ok goal : σ → ι → Prop} {inv : σ → Prop}
    (hst : ∀ s i, inv s → ok s i → inv (step s i))
    (hg : ∀ s i, inv s → ok s i → goal s i) :
    ∀ {is : List ι} {s : σ}, inv s → StepsMeet step ok s is → StepsMeet step goal s is
  | [], _, _, _ => trivial
  | i :: _, s, hs, h =>
    ⟨hg s i hs h.1, StepsMeet.conclude hst hg (hst s i hs h.1) h.2⟩

end Run

section Search

/-- The first index below `n` that satisfies the test. -/
def firstIdx (p : ℕ → Bool) (n : ℕ) : Option ℕ :=
  (List.range n).find? p

/-- The last index below `n` that satisfies the test. -/
def lastIdx (p : ℕ → Bool) (n : ℕ) : Option ℕ :=
  (List.range n).foldl (fun found i => if p i then some i else found) none

variable {p q : ℕ → Bool} {n i : ℕ}

lemma firstIdx_eq_some :
    firstIdx p n = some i ↔ p i = true ∧ i < n ∧ ∀ j < i, p j = false := by
  simp [firstIdx, find?_range_eq_some]

lemma firstIdx_eq_none : firstIdx p n = none ↔ ∀ j < n, p j = false := by
  simp [firstIdx, find?_eq_none]

lemma firstIdx_isSome : (firstIdx p n).isSome ↔ ∃ j < n, p j = true := by
  simp [firstIdx, find?_isSome]

lemma firstIdx_of_unique (hi : i < n) (hp : p i = true) (hu : ∀ j < n, p j = true → j = i) :
    firstIdx p n = some i := by
  refine firstIdx_eq_some.2 ⟨hp, hi, fun j hj => ?_⟩
  by_contra hpj
  have := hu j (by omega) (by simpa using hpj)
  omega

lemma firstIdx_congr (h : ∀ j < n, p j = q j) : firstIdx p n = firstIdx q n := by
  rcases hq : firstIdx q n with _ | k
  · rw [firstIdx_eq_none] at hq ⊢
    exact fun j hj => (h j hj).trans (hq j hj)
  · rw [firstIdx_eq_some] at hq ⊢
    exact ⟨(h k hq.2.1).trans hq.1, hq.2.1, fun j hj => (h j (hj.trans hq.2.1)).trans (hq.2.2 j hj)⟩

lemma lastIdx_succ : lastIdx p (n + 1) = if p n then some n else lastIdx p n := by
  simp [lastIdx, range_succ]

lemma lastIdx_eq_none : ∀ {n}, lastIdx p n = none ↔ ∀ j < n, p j = false
  | 0 => by simp [lastIdx]
  | n + 1 => by
    rw [lastIdx_succ]
    constructor
    · intro h j hj
      split_ifs at h with hp
      rcases Nat.lt_succ_iff_lt_or_eq.1 hj with hj | rfl
      · exact lastIdx_eq_none.1 h j hj
      · simpa using hp
    · intro h
      rw [if_neg (by simp [h n (by omega)])]
      exact lastIdx_eq_none.2 fun j hj => h j (by omega)

lemma lastIdx_some : ∀ {n}, lastIdx p n = some i → i < n ∧ p i = true
  | 0, h => by simp [lastIdx] at h
  | n + 1, h => by
    rw [lastIdx_succ] at h
    split_ifs at h with hp
    · simp only [Option.some.injEq] at h
      exact ⟨by omega, h ▸ hp⟩
    · exact ⟨(lastIdx_some h).1.trans (by omega), (lastIdx_some h).2⟩

lemma lastIdx_max : ∀ {n}, lastIdx p n = some i → ∀ j < n, p j = true → j ≤ i
  | 0, h, _, hj, _ => absurd hj (by omega)
  | n + 1, h, j, hj, hp => by
    rw [lastIdx_succ] at h
    split_ifs at h with hn
    · simp only [Option.some.injEq] at h
      omega
    · rcases Nat.lt_succ_iff_lt_or_eq.1 hj with hj | rfl
      · exact lastIdx_max h j hj hp
      · exact absurd hp hn

lemma lastIdx_of_unique (hi : i < n) (hp : p i = true) (hu : ∀ j < n, p j = true → j = i) :
    lastIdx p n = some i := by
  rcases h : lastIdx p n with _ | k
  · simp [lastIdx_eq_none.1 h i hi] at hp
  · rw [hu k (lastIdx_some h).1 (lastIdx_some h).2]

/-- The first index below `n` of greatest rank among those that satisfy the test. -/
def bestIdx (p : ℕ → Bool) (rank : ℕ → ℕ) (n : ℕ) : Option ℕ :=
  (List.range n).foldl (fun best i =>
    if p i ∧ best.all (fun j => decide (rank i > rank j)) then some i else best) none

lemma bestIdx_succ {rank : ℕ → ℕ} : bestIdx p rank (n + 1) =
    if p n ∧ (bestIdx p rank n).all (fun j => decide (rank n > rank j)) then some n
    else bestIdx p rank n := by
  simp [bestIdx, range_succ]

lemma bestIdx_some {rank : ℕ → ℕ} : ∀ {n}, bestIdx p rank n = some i → i < n ∧ p i = true
  | 0, h => by simp [bestIdx] at h
  | n + 1, h => by
    rw [bestIdx_succ] at h
    split_ifs at h with hp
    · simp only [Option.some.injEq] at h
      exact ⟨by omega, h ▸ hp.1⟩
    · exact ⟨(bestIdx_some h).1.trans (by omega), (bestIdx_some h).2⟩

lemma bestIdx_eq_none {rank : ℕ → ℕ} : ∀ {n}, bestIdx p rank n = none → ∀ j < n, p j = false
  | 0, _ => by simp
  | n + 1, h => by
    rw [bestIdx_succ] at h
    split_ifs at h with hp
    intro j hj
    rcases Nat.lt_succ_iff_lt_or_eq.1 hj with hj | rfl
    · exact bestIdx_eq_none h j hj
    · simpa [h] using hp

lemma bestIdx_best {rank : ℕ → ℕ} :
    ∀ {n i}, bestIdx p rank n = some i → ∀ j < n, p j = true → rank j ≤ rank i
  | 0, _, h => by simp [bestIdx] at h
  | n + 1, i, h => by
    rw [bestIdx_succ] at h
    intro j hj hpj
    split_ifs at h with hp
    · obtain rfl := Option.some.inj h
      rcases Nat.lt_succ_iff_lt_or_eq.1 hj with hj | rfl
      · -- the best so far is beaten, and it is no worse than `j`
        rcases hb : bestIdx p rank n with _ | k
        · rw [bestIdx_eq_none hb j hj] at hpj
          cases hpj
        · have hlt : rank k < rank n := by simpa [hb] using hp.2
          exact (bestIdx_best hb j hj hpj).trans hlt.le
      · exact le_rfl
    · rcases Nat.lt_succ_iff_lt_or_eq.1 hj with hj | rfl
      · exact bestIdx_best h j hj hpj
      · simpa [h, hpj] using hp

end Search

end Lib
