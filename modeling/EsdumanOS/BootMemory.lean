import EsdumanOS.Pmm

/-!
# What the bootloader reports, and the frames it leaves

`init_pmm` of `pmm.c` sizes the bitmap, clears the bits of usable frames and marks what the kernel
owns. It reads the low words of addresses and lengths; the loop over a region need not end, so it
has fuel.
-/

namespace EsdumanOS

open Function

/-- `multiboot_memory_map_t`: the address, the length and the type of a region. -/
structure MmapEntry where
  addr : ℕ
  len : ℕ
  type : ℕ
  deriving DecidableEq, Repr

namespace MmapEntry

variable (e : MmapEntry)

def addrLow : ℕ := u32 e.addr

def lenLow : ℕ := u32 e.len

def Has (x : ℕ) : Prop := e.addr ≤ x ∧ x < e.addr + e.len

end MmapEntry

/-- What `init_pmm` reads of `multiboot_info_t`: the two flags, with the field behind each. -/
structure MultibootInfo where
  memUpper : Option ℕ
  mmap : Option (List MmapEntry)

inductive Multiboot
  | one | two
  deriving DecidableEq, Repr

def mb2MmapMax : ℕ := 64

/-- `mb2_take_mmap`: the entries that fit the table. -/
def mb2TakeMmap (entries : List MmapEntry) : List MmapEntry := entries.take mb2MmapMax

/-- What `init_pmm` gets for a memory map. `mb2_translate` sets the flag for a table that is not
empty. -/
def multibootInfo (boot : Multiboot) (memUpper : Option ℕ) (entries : List MmapEntry) :
    MultibootInfo :=
  match boot with
  | .one => ⟨memUpper, some entries⟩
  | .two =>
    ⟨memUpper, if (mb2TakeMmap entries).length = 0 then none else some (mb2TakeMmap entries)⟩

/-- Where the kernel's image ends: it starts at 1 MB and lies in what `boot.asm` maps. -/
structure KernelImage where
  kernelEnd : ℕ
  low : 0x100000 ≤ kernelEnd
  high : kernelEnd ≤ 0x1000000

def pmmFallbackMemory : ℕ := 16 * 1024 * 1024

def highestAddr (entries : List MmapEntry) : ℕ :=
  entries.foldl (fun highest e =>
    if e.type = 1 then
      if highest < u32 (e.addrLow + e.lenLow) then u32 (e.addrLow + e.lenLow) else highest
    else highest) 0

def mapHighest : Option MultibootInfo → ℕ
  | some ⟨_, some entries⟩ => highestAddr entries
  | _ => 0

/-- The size of memory by the map, or else by `mem_upper`, and whether either says one. -/
def foundMemory (info : Option MultibootInfo) : ℕ × Bool :=
  if 0 < mapHighest info then (mapHighest info, true)
  else
    match info with
    | some ⟨some upper, _⟩ => (u32 (upper * 1024 + 1024 * 1024), true)
    | _ => (0, false)

/-- `actual_total_memory` and `memory_map_found`. -/
def totalMemory (info : Option MultibootInfo) : ℕ × Bool :=
  if (foundMemory info).2 = false ∨ (foundMemory info).1 = 0 then
    (pmmFallbackMemory, (foundMemory info).2)
  else foundMemory info

/-- The loop over one region, with `i` the offset it has reached. -/
def clearRegion (framesCount start length : ℕ) :
    ℕ → ℕ → (ℕ → Bool) → Option (ℕ → Bool)
  | 0, _, _ => none
  | fuel + 1, i, bitmap =>
    if i < length then
      let frame := u32 (start + i) / pageSize
      clearRegion framesCount start length fuel (u32 (i + pageSize))
        (if frame < framesCount then update bitmap frame false else bitmap)
    else some bitmap

/-- The second walk over the map: the frames of the usable regions are free. -/
def clearMap (framesCount fuel : ℕ) : List MmapEntry → (ℕ → Bool) → Option (ℕ → Bool)
  | [], bitmap => some bitmap
  | e :: es, bitmap =>
    if e.type = 1 then
      match clearRegion framesCount e.addrLow e.lenLow fuel 0 bitmap with
      | none => none
      | some bitmap => clearMap framesCount fuel es bitmap
    else clearMap framesCount fuel es bitmap

def freeBitmap (fuel framesCount : ℕ) (found : Bool) (info : Option MultibootInfo) :
    Option (ℕ → Bool) :=
  match found, info with
  | true, some ⟨_, some entries⟩ => clearMap framesCount fuel entries fun _ => true
  | _, _ => some fun f => decide (framesCount ≤ f)

/-- `kernel_end_frame`: behind the image, 1 MB, the bitmap and the reference counts. -/
def kernelEndFrame (image : KernelImage) (framesCount : ℕ) : ℕ :=
  let kernelEndPhys := u32 (image.kernelEnd + 0x100000 + (framesCount + 31) / 32 * 4 + framesCount)
  u32 (kernelEndPhys + pageSize - 1) / pageSize

def initPmm (fuel : ℕ) (image : KernelImage) (info : Option MultibootInfo) : Option Pmm :=
  let total := totalMemory info
  let framesCount := total.1 / pageSize
  match freeBitmap fuel framesCount total.2 info with
  | none => none
  | some bitmap =>
    let endFrame := kernelEndFrame image framesCount
    let bitmap := fun f => decide (f < endFrame) || bitmap f
    some {
      framesCount := framesCount
      bitmap := bitmap
      refcount := fun f => if f < framesCount ∧ bitmap f = true then 1 else 0
      lowestFreeIdx := endFrame / 32
      usedMemory := (List.range framesCount).foldl
        (fun used f => if bitmap f then u32 (used + pageSize) else used) 0 }

def FrameUsable (entries : List MmapEntry) (f : ℕ) : Prop :=
  ∀ x, f * pageSize ≤ x → x < f * pageSize + pageSize → ∃ e ∈ entries, e.type = 1 ∧ e.Has x

def FrameClear (entries : List MmapEntry) (f : ℕ) : Prop :=
  ∀ x, f * pageSize ≤ x → x < f * pageSize + pageSize → ∀ e ∈ entries, e.type ≠ 1 → ¬ e.Has x

/-- The free frames of `p` are usable memory that is not the kernel's. -/
structure OnlyUsable (entries : List MmapEntry) (image : KernelImage) (p : Pmm) : Prop where
  usable : ∀ f, p.bitmap f = false → FrameUsable entries f
  clear : ∀ f, p.bitmap f = false → FrameClear entries f
  kernel : ∀ f, p.bitmap f = false →
    image.kernelEnd + 0x100000 + p.bitmapSizeWords * 4 + p.framesCount ≤ f * pageSize

/-- `init_pmm` comes to an end, and leaves only usable memory free. -/
def InitSafe (image : KernelImage) (boot : Multiboot) (memUpper : Option ℕ)
    (entries : List MmapEntry) : Prop :=
  ∃ fuel p, initPmm fuel image (some (multibootInfo boot memUpper entries)) = some p ∧
    OnlyUsable entries image p

def MmapEntry.Names (e : MmapEntry) (f : ℕ) : Prop :=
  ∃ i, i * pageSize < e.lenLow ∧ f = u32 (e.addrLow + i * pageSize) / pageSize

/-- A frame that `init_pmm` takes to be free, by the map or because it has none. -/
def MultibootInfo.Names (info : MultibootInfo) (f : ℕ) : Prop :=
  match (totalMemory info).2, info.mmap with
  | true, some entries => ∃ e ∈ entries, e.type = 1 ∧ e.Names f
  | _, _ => True

def MultibootInfo.LoopsEnd (info : MultibootInfo) : Prop :=
  match (totalMemory info).2, info.mmap with
  | true, some entries => ∀ e ∈ entries, e.type = 1 → e.lenLow ≤ 2 ^ 32 - pageSize
  | _, _ => True

/-- What the low words of the map name is usable, but for the kernel's own. -/
def MapHonest (image : KernelImage) (boot : Multiboot) (memUpper : Option ℕ)
    (entries : List MmapEntry) : Prop :=
  let info := multibootInfo boot memUpper entries
  let framesCount := (totalMemory info).1 / pageSize
  info.LoopsEnd ∧ ∀ f, kernelEndFrame image framesCount ≤ f → f < framesCount → info.Names f →
    FrameUsable entries f ∧ FrameClear entries f

/-- The calls of the allocator, with the addresses that are passed. -/
inductive FrameCall
  | alloc
  | ref (addr : ℕ)
  | free (addr : ℕ)

structure FrameSys where
  pmm : Pmm
  owners : ℕ → ℕ

/-- The address of a counted frame that somebody holds. -/
def FrameSys.counts (s : FrameSys) (frame : ℕ) : Bool :=
  decide (pmmLowMemoryFrames ≤ frame ∧ frame < s.pmm.framesCount ∧ 0 < s.owners frame)

def frameStep (s : FrameSys) : FrameCall → FrameSys
  | .alloc =>
    match pmmAllocFrame s.pmm with
    | (none, p) => { s with pmm := p }
    | (some f, p) => ⟨p, update s.owners f 1⟩
  | .ref addr =>
    let f := addr / pageSize
    ⟨pmmRefFrame s.pmm f,
      if s.counts f then update s.owners f (s.owners f + 1) else s.owners⟩
  | .free addr =>
    let f := addr / pageSize
    ⟨pmmFreeFrame s.pmm f,
      if s.counts f then update s.owners f (s.owners f - 1) else s.owners⟩

/-- After `init_pmm` every frame that is not free has one owner. -/
def FrameSys.init (p : Pmm) : FrameSys :=
  ⟨p, fun f => if p.bitmap f then 1 else 0⟩

def frameRun (s : FrameSys) (calls : List FrameCall) : FrameSys := calls.foldl frameStep s

def BelowMax (s : FrameSys) : FrameCall → Prop
  | .ref addr => s.owners (addr / pageSize) < 0xFF
  | _ => True

def Pmm.setBits (p : Pmm) : Finset ℕ := {f ∈ Finset.range p.framesCount | p.bitmap f = true}

structure FrameSound (p : Pmm) : Prop where
  bits : ∀ f < p.framesCount, p.bitmap f = true ↔ 1 ≤ p.refcount f
  used : p.usedMemory = 4096 * p.setBits.card
  full : ∀ f, f / 32 < p.lowestFreeIdx → p.bitmap f = true
  fails : (pmmAllocFrame p).1 = none ↔ ∀ f < p.framesCount, p.bitmap f = true
  lowest : ∀ f, (pmmAllocFrame p).1 = some f →
    f < p.framesCount ∧ p.bitmap f = false ∧ p.refcount f = 0 ∧ ∀ g < f, p.bitmap g = true

/-- A frame of the pool is in use while a reference is out, and free with the last `free`. -/
structure CountsOwners (s : FrameSys) : Prop where
  held : ∀ f, pmmLowMemoryFrames ≤ f → f < s.pmm.framesCount →
    (s.pmm.bitmap f = true ↔ 0 < s.owners f)
  last : ∀ f, pmmLowMemoryFrames ≤ f → f < s.pmm.framesCount → s.pmm.bitmap f = true → ∀ call,
    ((frameStep s call).pmm.bitmap f = false ↔
      s.owners f = 1 ∧ ∃ addr, call = .free addr ∧ addr / pageSize = f)

end EsdumanOS
