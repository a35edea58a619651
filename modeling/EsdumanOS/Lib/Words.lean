import Mathlib.Tactic

/-!
# Words in a memory of bytes

A 32-bit word is four bytes, the lowest first. A store is seen by the loads at its own address
(`load32_store32`) and by no load or byte apart from it (`load32_store32_apart`,
`store32_apart`).
-/

namespace Lib

open Function

/-- The word at `a`. -/
def load32 (m : ℕ → UInt8) (a : ℕ) : ℕ :=
  (m a).toNat + 256 * (m (a + 1)).toNat + 65536 * (m (a + 2)).toNat +
    16777216 * (m (a + 3)).toNat

/-- The memory with the word `v` at `a`. -/
def store32 (m : ℕ → UInt8) (a v : ℕ) : ℕ → UInt8 := fun x =>
  if x = a then UInt8.ofNat v
  else if x = a + 1 then UInt8.ofNat (v / 256)
  else if x = a + 2 then UInt8.ofNat (v / 65536)
  else if x = a + 3 then UInt8.ofNat (v / 16777216)
  else m x

def copyBytes (dst src : ℕ) : ℕ → (ℕ → UInt8) → ℕ → UInt8
  | 0, m => m
  | n + 1, m =>
    let m := copyBytes dst src n m
    Function.update m (dst + n) (m (src + n))

variable {m : ℕ → UInt8} {a b v x : ℕ}

lemma store32_apart (h : x < a ∨ a + 4 ≤ x) : store32 m a v x = m x := by
  simp only [store32]
  rw [if_neg (by omega), if_neg (by omega), if_neg (by omega), if_neg (by omega)]

lemma load32_lt (m : ℕ → UInt8) (a : ℕ) : load32 m a < 2 ^ 32 := by
  have h0 := (m a).toNat_lt
  have h1 := (m (a + 1)).toNat_lt
  have h2 := (m (a + 2)).toNat_lt
  have h3 := (m (a + 3)).toNat_lt
  unfold load32
  omega

lemma load32_congr {m' : ℕ → UInt8} (h : ∀ x, a ≤ x → x < a + 4 → m' x = m x) :
    load32 m' a = load32 m a := by
  unfold load32
  rw [h a (by omega) (by omega), h (a + 1) (by omega) (by omega), h (a + 2) (by omega) (by omega),
    h (a + 3) (by omega) (by omega)]

lemma load32_store32 (hv : v < 2 ^ 32) : load32 (store32 m a v) a = v := by
  simp only [load32, store32]
  simp
  omega

lemma load32_store32_apart (h : a + 4 ≤ b ∨ b + 4 ≤ a) :
    load32 (store32 m a v) b = load32 m b :=
  load32_congr fun _ _ _ => store32_apart (by omega)

section Copy

variable {dst src : ℕ}

lemma copyBytes_apart : ∀ {n : ℕ}, (x < dst ∨ dst + n ≤ x) → copyBytes dst src n m x = m x
  | 0, _ => rfl
  | n + 1, h => by
    rw [copyBytes, update_of_ne (by omega), copyBytes_apart (by omega)]

lemma copyBytes_copied : ∀ {n : ℕ}, (dst + n ≤ src ∨ src + n ≤ dst) → ∀ k < n,
    copyBytes dst src n m (dst + k) = m (src + k)
  | 0, _, _, hk => absurd hk (by omega)
  | n + 1, h, k, hk => by
    rw [copyBytes]
    rcases Nat.lt_succ_iff_lt_or_eq.1 hk with hk | rfl
    · rw [update_of_ne (by omega), copyBytes_copied (by omega) k hk]
    · rw [update_self, copyBytes_apart (by omega)]

end Copy

end Lib
