import EsdumanOS.Base

/-!
# Checking user pointers

`validate_user_pointer` and `validate_user_writable_pointer`, over the words of the page directory
and the page tables, and `user_range_is_valid`, the check of the copy helpers.
-/

namespace EsdumanOS

structure PageWords where
  pd : ℕ → ℕ
  pt : ℕ → ℕ → ℕ

def pageCow : ℕ := 0x200
def userStart : ℕ := 0x400000
def userEnd : ℕ := 0xC0000000

namespace PageWords

variable (w : PageWords) (requiresWrite : Bool)

def pageAllowed (page : ℕ) : Bool :=
  let pdIndex := page / 2 ^ 22
  let ptIndex := page / 2 ^ 12 % 1024
  if w.pd pdIndex &&& 1 = 0 then false
  else if w.pt pdIndex ptIndex &&& 0x05 ≠ 0x05 then false
  else if requiresWrite = true ∧ w.pt pdIndex ptIndex &&& 0x02 = 0 ∧
      w.pt pdIndex ptIndex &&& pageCow = 0 then false
  else true

/-- The loop over the pages; `none` if it has not come to its end within the given turns. -/
def checkPages (endAddr : ℕ) : ℕ → ℕ → Option Bool
  | 0, _ => none
  | turns + 1, page =>
    if page < endAddr then
      if w.pageAllowed requiresWrite page then checkPages endAddr turns (u32 (page + 4096))
      else some false
    else some true

/-- `validate_user_pointer_access`. The loop is given one turn more than there are pages. -/
def validateUserPointerAccess (ptr size : ℕ) : Option Bool :=
  let endAddr := u32 (ptr + size)
  if endAddr < ptr then some false
  else if size = 0 then some true
  else if ptr < userStart ∨ userEnd < endAddr then some false
  else w.checkPages requiresWrite endAddr (2 ^ 20 + 1) (ptr / 4096 * 4096)

def validateUserPointer (ptr size : ℕ) : Option Bool := w.validateUserPointerAccess false ptr size

def validateUserWritablePointer (ptr size : ℕ) : Option Bool :=
  w.validateUserPointerAccess true ptr size

end PageWords

def userRangeIsValid (ptr n : ℕ) : Bool :=
  if n = 0 then true
  else if ptr < userStart ∨ userEnd ≤ ptr then false
  else if 0xBFFFFFFF - ptr < n - 1 then false
  else true

namespace PageWords

variable (w : PageWords) (requiresWrite : Bool)

/-- The byte lies in a present user page that may be written or is shared until it is. -/
structure ByteAllowed (addr : ℕ) : Prop where
  table : (w.pd (addr / 2 ^ 22)).testBit 0 = true
  present : (w.pt (addr / 2 ^ 22) (addr / 2 ^ 12 % 1024)).testBit 0 = true
  user : (w.pt (addr / 2 ^ 22) (addr / 2 ^ 12 % 1024)).testBit 2 = true
  write : requiresWrite = true →
    (w.pt (addr / 2 ^ 22) (addr / 2 ^ 12 % 1024)).testBit 1 = true ∨
      (w.pt (addr / 2 ^ 22) (addr / 2 ^ 12 % 1024)).testBit 9 = true

structure RangeAllowed (ptr size : ℕ) : Prop where
  noWrap : ptr + size < 2 ^ 32
  low : userStart ≤ ptr
  high : ptr + size ≤ userEnd
  bytes : ∀ addr, ptr ≤ addr → addr < ptr + size → w.ByteAllowed requiresWrite addr

/-- The check ends, accepts exactly the allowed ranges, and nothing that the copy helpers refuse. -/
def Exact (result : Option Bool) (ptr size : ℕ) : Prop :=
  ∃ accepted, result = some accepted ∧
    (accepted = true ↔ w.RangeAllowed requiresWrite ptr size) ∧
    (accepted = true → userRangeIsValid ptr size = true)

end PageWords

end EsdumanOS
