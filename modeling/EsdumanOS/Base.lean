import Mathlib.Tactic

/-!
# Errors, security levels and bytes

What every part of the kernel shares: the status codes of `errno.h`, the security levels of
`security.h`, byte buffers, and the little-endian layout of the packed structures.
-/

namespace EsdumanOS

/-- The status codes of `errno.h` that the modelled functions return. -/
inductive Errno
  | ok | noent | io | badf | again | nomem | acces | fault | busy | exist | nodev | inval | nfile
  | mfile | fbig | nospc | rofs | notempty | noexec | pipe | perm | notdir | nametoolong
  deriving DecidableEq, Repr

/-- The levels of `security.h`, lowest first. -/
inductive SecLevel
  | normal | cryptoEnforced | lockdown | immutable
  deriving DecidableEq, Repr

namespace SecLevel

def toNat : SecLevel → ℕ
  | normal => 0
  | cryptoEnforced => 1
  | lockdown => 2
  | immutable => 3

instance : LE SecLevel := ⟨fun a b => a.toNat ≤ b.toNat⟩

instance : DecidableLE SecLevel := fun a b => Nat.decLe a.toNat b.toNat

end SecLevel

def maxTasks : ℕ := 16

abbrev Buf := ℕ → UInt8

/-- Byte `k` of a little-endian integer. -/
def leByte (v k : ℕ) : UInt8 :=
  UInt8.ofNat (v / 256 ^ k)

/-- What a `uint32_t` keeps of a number. -/
def u32 (n : ℕ) : ℕ :=
  n % 2 ^ 32

@[simp] lemma u32_of_lt {n : ℕ} (h : n < 2 ^ 32) : u32 n = n := Nat.mod_eq_of_lt h

/-- What an `int` keeps of a number. -/
def i32 (n : ℤ) : ℤ := n.bmod (2 ^ 32)

lemma i32_of_lt {n : ℤ} (h0 : -2 ^ 31 ≤ n) (h : n < 2 ^ 31) : i32 n = n :=
  Int.bmod_eq_of_le (by omega) (by omega)

end EsdumanOS
