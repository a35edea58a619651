import EsdumanOS.Base
import EsdumanOS.Lib.Runs

/-!
# Physical frames

The frame allocator of `pmm.c`: a bitmap, a byte of reference count for each frame, and the index of
the first bitmap word that may have a free frame. A frame is named by its number.
-/

namespace EsdumanOS

open Function

def pageSize : ℕ := 4096

def pmmLowMemoryFrames : ℕ := 0x100000 / pageSize

structure Pmm where
  framesCount : ℕ
  bitmap : ℕ → Bool
  refcount : ℕ → ℕ
  lowestFreeIdx : ℕ
  usedMemory : ℕ

variable (p : Pmm) (frame : ℕ)

def Pmm.bitmapSizeWords : ℕ := (p.framesCount + 31) / 32

/-- `pmm_find_first_free`: the words from `lowest_free_idx` on, each from bit 0. -/
def pmmFindFirstFree : Option ℕ × Pmm :=
  match Lib.firstIdx (fun f => decide (p.lowestFreeIdx ≤ f / 32) && !p.bitmap f)
      (p.bitmapSizeWords * 32) with
  | some f => (some f, { p with lowestFreeIdx := f / 32 })
  | none => (none, p)

def pmmAllocFrame : Option ℕ × Pmm :=
  match pmmFindFirstFree p with
  | (none, p) => (none, p)
  | (some f, p) =>
    if p.framesCount ≤ f then (none, p)
    else
      (some f, { p with
        bitmap := update p.bitmap f true
        refcount := update p.refcount f 1
        usedMemory := u32 (p.usedMemory + pageSize) })

def pmmRefFrame : Pmm :=
  if frame < pmmLowMemoryFrames then p
  else if p.framesCount ≤ frame then p
  else if p.bitmap frame = false then p
  else if p.refcount frame = 0xFF then p
  else
    -- a frame of the boot path that was never counted has one owner
    let owners := if p.refcount frame = 0 then 1 else p.refcount frame
    { p with refcount := update p.refcount frame (owners + 1) }

def pmmFrameRefcount : ℕ :=
  if p.framesCount ≤ frame then 0 else p.refcount frame

def pmmFreeFrame : Pmm :=
  if frame < pmmLowMemoryFrames then p
  else if p.framesCount ≤ frame then p
  else if p.bitmap frame = false then p
  else if 1 < p.refcount frame then
    { p with refcount := update p.refcount frame (p.refcount frame - 1) }
  else
    { p with
      refcount := update p.refcount frame 0
      bitmap := update p.bitmap frame false
      usedMemory := u32 (p.usedMemory + 2 ^ 32 - pageSize)
      lowestFreeIdx := if frame / 32 < p.lowestFreeIdx then frame / 32 else p.lowestFreeIdx }

end EsdumanOS
