import EsdumanOS.Shadow

/-!
# Programs

`cp.c`, over whatever the system calls answer.
-/

namespace EsdumanOS

/-- The answers of the system calls that `cp` makes; turn `k` of its loop reads and writes. -/
structure CpCalls where
  (openIn create openOut : ℤ)
  (read write : ℕ → ℤ)
  close : ℤ

/-- The loop of `cp` from turn `k` on, as far as `fuel` turns: the status. -/
def cpLoop (c : CpCalls) : ℕ → ℕ → Option ℕ
  | 0, _ => none
  | fuel + 1, k =>
    if c.read k ≤ 0 then some 0
    else if c.write k < 0 then some 1
    else cpLoop c fuel (k + 1)

/-- The exit status of `cp`, whose closes go unread. -/
def cpMain (c : CpCalls) (args : List UInt8) (fuel : ℕ) : Option ℕ :=
  if ascii ' ' ∈ args then
    if c.openIn < 0 then some 1
    else if c.create < 0 then some 1
    else if c.openOut < 0 then some 1
    else cpLoop c fuel 0
  else some 1

namespace CpCalls

variable (c : CpCalls)

/-- Turn `n` is reached: up to it, reads gave bytes and no write failed. -/
def Reaches (n : ℕ) : Prop := ∀ k < n, 0 < c.read k ∧ 0 ≤ c.write k

/-- The reads came to the end of the file at turn `n`, every byte was taken and committed. -/
def CopiedBy (n : ℕ) : Prop :=
  c.read n = 0 ∧ (∀ k < n, 0 < c.read k ∧ c.write k = c.read k) ∧ c.close = 0

end CpCalls

end EsdumanOS
