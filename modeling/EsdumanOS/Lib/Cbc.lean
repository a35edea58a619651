import Mathlib.Tactic

/-!
# Cipher block chaining

A block cipher over any type of blocks, and the mode that mixes every block with the ciphertext
before it. A ciphertext cut off behind a block still decrypts up to it (`cbcDecrypt_cbcEncrypt`).
-/

namespace Lib

variable {β : Type*}

/-- A block cipher under a fixed key. -/
structure BlockCipher (β : Type*) where
  enc : β → β
  dec : β → β
  dec_enc : ∀ x, dec (enc x) = x

variable (mix : β → β → β) (c : BlockCipher β) (iv : β)

/-- Block `j` of the ciphertext of `p`. -/
def cbcEncrypt (p : ℕ → β) : ℕ → β
  | 0 => c.enc (mix (p 0) iv)
  | j + 1 => c.enc (mix (p (j + 1)) (cbcEncrypt p j))

/-- Block `j` of the plaintext of `y`. -/
def cbcDecrypt (y : ℕ → β) : ℕ → β
  | 0 => mix (c.dec (y 0)) iv
  | j + 1 => mix (c.dec (y (j + 1))) (y j)

variable {mix c iv}

lemma cbcDecrypt_cbcEncrypt (hm : ∀ a b, mix (mix a b) b = a) {p y : ℕ → β} {j : ℕ}
    (hy : ∀ i ≤ j, y i = cbcEncrypt mix c iv p i) : cbcDecrypt mix c iv y j = p j := by
  cases j with
  | zero => rw [cbcDecrypt, hy 0 le_rfl, cbcEncrypt, c.dec_enc, hm]
  | succ j => rw [cbcDecrypt, hy (j + 1) le_rfl, hy j (by omega), cbcEncrypt, c.dec_enc, hm]

end Lib
