import Mathlib.Tactic

/-!
# Reference counts against a bag of handles

A count per object is exact for a bag of handles when it is the number of handles that refer to the
object. A table of handles with one slot rewritten is the old bag with one handle exchanged.
-/

namespace Lib

open List

section Exact

variable {η κ : Type*} [DecidableEq κ] (obj : η → Option κ)

/-- How many handles of the bag refer to `x`. -/
def handles (l : List η) (x : κ) : ℕ :=
  l.countP fun h => obj h = some x

def ExactRefs (refs : κ → ℤ) (l : List η) : Prop :=
  ∀ x, refs x = handles obj l x

variable {obj} {refs refs' : κ → ℤ} {l l' : List η} {a : η} {x : κ}

lemma handles_pos (ha : a ∈ l) (hx : obj a = some x) : 0 < handles obj l x :=
  List.countP_pos_iff.2 ⟨a, ha, by simpa using hx⟩

lemma handles_le_length : handles obj l x ≤ l.length := List.countP_le_length

lemma handles_cons_self (hx : obj a = some x) : handles obj (a :: l) x = handles obj l x + 1 := by
  simp [handles, hx]

lemma handles_cons_of_ne (hx : obj a ≠ some x) : handles obj (a :: l) x = handles obj l x := by
  simp [handles, hx]

lemma ExactRefs.perm (h : ExactRefs obj refs l) (hl : l ~ l') : ExactRefs obj refs l' := by
  intro x
  rw [h x, handles, handles, hl.countP_eq]

lemma ExactRefs.nonneg (h : ExactRefs obj refs l) (x : κ) : 0 ≤ refs x := by
  rw [h x]
  omega

lemma ExactRefs.pos (h : ExactRefs obj refs l) (ha : a ∈ l) (hx : obj a = some x) :
    0 < refs x := by
  rw [h x]
  exact_mod_cast handles_pos ha hx

lemma ExactRefs.cons_none (ha : obj a = none) :
    ExactRefs obj refs (a :: l) ↔ ExactRefs obj refs l := by
  have : ∀ x, handles obj (a :: l) x = handles obj l x := fun x =>
    handles_cons_of_ne (by simp [ha])
  simp [ExactRefs, this]

lemma ExactRefs.take (h : ExactRefs obj refs l) (ha : obj a = some x)
    (hs : refs' x = refs x + 1) (ho : ∀ y, y ≠ x → refs' y = refs y) :
    ExactRefs obj refs' (a :: l) := by
  intro y
  by_cases hy : y = x
  · subst hy
    rw [hs, h y, handles_cons_self ha]
    rfl
  · rw [ho y hy, h y, handles_cons_of_ne]
    rw [ha]
    simpa using Ne.symm hy

lemma ExactRefs.drop (h : ExactRefs obj refs (a :: l)) (ha : obj a = some x)
    (hs : refs' x = refs x - 1) (ho : ∀ y, y ≠ x → refs' y = refs y) :
    ExactRefs obj refs' l := by
  intro y
  by_cases hy : y = x
  · subst hy
    rw [hs, h y, handles_cons_self ha]
    push_cast
    ring
  · rw [ho y hy, h y, handles_cons_of_ne]
    rw [ha]
    simpa using Ne.symm hy

end Exact

section Tables

variable {η : Type*} {tables : List (List η)} {tb : List η} {t k : ℕ} {a b : η}

lemma perm_cons_of_getElem? (h : tb[k]? = some a) : tb ~ a :: tb.eraseIdx k := by
  obtain ⟨hk, rfl⟩ := List.getElem?_eq_some_iff.1 h
  exact (List.getElem_cons_eraseIdx_perm hk).symm

lemma set_perm_of_getElem? (h : tb[k]? = some a) : tb.set k b ~ b :: tb.eraseIdx k :=
  List.set_perm_cons_eraseIdx (List.getElem?_eq_some_iff.1 h).1 b

lemma flatten_perm_of_getElem? (h : tables[t]? = some tb) :
    tables.flatten ~ tb ++ (tables.eraseIdx t).flatten :=
  (perm_cons_of_getElem? h).flatten

lemma flatten_set_perm (h : tables[t]? = some tb) (tb' : List η) :
    (tables.set t tb').flatten ~ tb' ++ (tables.eraseIdx t).flatten :=
  (set_perm_of_getElem? h).flatten

def slotRest (tables : List (List η)) (t : ℕ) (tb : List η) (k : ℕ) : List η :=
  tb.eraseIdx k ++ (tables.eraseIdx t).flatten

lemma flatten_slot (h : tables[t]? = some tb) (hk : tb[k]? = some a) :
    tables.flatten ~ a :: slotRest tables t tb k :=
  (flatten_perm_of_getElem? h).trans ((perm_cons_of_getElem? hk).append_right _)

lemma flatten_set_slot (h : tables[t]? = some tb) (hk : tb[k]? = some a) (b : η) :
    (tables.set t (tb.set k b)).flatten ~ b :: slotRest tables t tb k :=
  (flatten_set_perm h _).trans ((set_perm_of_getElem? hk).append_right _)

lemma mem_slotRest {j : ℕ} (hj : tb[j]? = some b) (hjk : j ≠ k) : b ∈ slotRest tables t tb k :=
  List.mem_append_left _ (List.mem_eraseIdx_iff_getElem?.2 ⟨j, hjk, hj⟩)

lemma length_flatten_of_length {n : ℕ} (h : ∀ tb ∈ tables, tb.length = n) :
    tables.flatten.length = tables.length * n := by
  rw [List.length_flatten]
  have : tables.map List.length = List.replicate tables.length n := by
    rw [List.eq_replicate_iff]
    simpa using h
  rw [this, List.sum_replicate, smul_eq_mul]

end Tables

end Lib
