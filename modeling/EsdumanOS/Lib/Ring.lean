import Mathlib.Tactic

/-!
# Rings

A ring of `n` slots, the `i`-th entry at slot `i % n`. `RingHolds` says from which entry on the ring
still has everything; an entry may be added once the one `n` places before it is no longer claimed
(`RingHolds.push`).
-/

namespace Lib

open List

variable {α : Type*} {n lo lo' i j : ℕ} {buf : ℕ → α} {xs : List α} {x : α}

/-- Of all the entries written, the ring has those from number `lo` on. -/
structure RingHolds (n : ℕ) (buf : ℕ → α) (xs : List α) (lo : ℕ) : Prop where
  lo_le : lo ≤ xs.length
  fits : xs.length ≤ lo + n
  slot : ∀ i, lo ≤ i → i < xs.length → xs[i]? = some (buf (i % n))

lemma mod_ne_of_lt_add (hi : i < j) (hj : j < i + n) : i % n ≠ j % n := by
  intro h
  have hd : n ∣ j - i := Nat.dvd_of_mod_eq_zero (Nat.sub_mod_eq_zero_of_mod_eq h.symm)
  have := Nat.le_of_dvd (by omega) hd
  omega

lemma RingHolds.nil (n : ℕ) (buf : ℕ → α) : RingHolds n buf [] 0 :=
  ⟨le_rfl, by simp, fun i _ hi => absurd hi (by simp)⟩

lemma RingHolds.advance (h : RingHolds n buf xs lo) (hle : lo ≤ lo') (hlo : lo' ≤ xs.length) :
    RingHolds n buf xs lo' :=
  ⟨hlo, h.fits.trans (by omega), fun i hi => h.slot i (hle.trans hi)⟩

lemma RingHolds.push (h : RingHolds n buf xs lo) (hr : xs.length < lo + n) (x : α) :
    RingHolds n (Function.update buf (xs.length % n) x) (xs ++ [x]) lo := by
  have hlo := h.lo_le
  refine ⟨by simp; omega, by simp; omega, fun i hi hlt => ?_⟩
  rw [length_append, length_singleton] at hlt
  rcases Nat.lt_succ_iff_lt_or_eq.1 hlt with hlt | rfl
  · rw [getElem?_append_left hlt, h.slot i hi hlt,
      Function.update_of_ne (mod_ne_of_lt_add hlt (by omega))]
  · simp

lemma RingHolds.drop_eq (h : RingHolds n buf xs lo) (hlt : lo < xs.length) :
    xs.drop lo = buf (lo % n) :: xs.drop (lo + 1) := by
  have hslot := h.slot lo le_rfl hlt
  rw [getElem?_eq_getElem hlt, Option.some.injEq] at hslot
  rw [drop_eq_getElem_cons hlt, hslot]

end Lib
