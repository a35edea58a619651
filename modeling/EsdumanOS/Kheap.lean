import EsdumanOS.Pmm
import EsdumanOS.Lib.Words
import EsdumanOS.Lib.TwoWay

/-!
# The kernel heap

`kheap.c`: a list of blocks with headers of 32 bytes, in pages that `heap_grow` maps at
`current_heap_end`. The last entry of the directory is the directory itself; one of the framebuffer
maps 4 MB and has no table.
-/

namespace EsdumanOS

open Lib (load32 store32 copyBytes)

def kheapStart : ℕ := 0xD0000000

def heapMagicAllocated : ℕ := 0xDEADBEEF
def heapMagicFree : ℕ := 0xFEEDFACE

/-- The members of `heap_block_t`. -/
inductive Field
  | magic | size | isFree | next | prev
  deriving DecidableEq, Repr

def Field.offset : Field → ℕ
  | magic => 0
  | size => 4
  | isFree => 8
  | next => 12
  | prev => 16

structure Kheap where
  mem : Buf
  heapHead : ℕ
  heapTail : ℕ
  currentHeapEnd : ℕ
  pd : ℕ → ℕ
  pt : ℕ → ℕ → ℕ
  pmm : Pmm
  totalMemory : ℕ

inductive Halt
  | initFailed | chainCorrupted | doubleFree | invalidPointer | spins
  deriving DecidableEq, Repr

namespace Kheap

variable (s : Kheap)

/-- A member of the header at `a`. -/
def get (f : Field) (a : ℕ) : ℕ := load32 s.mem (a + f.offset)

@[simps -fullyApplied heapHead heapTail currentHeapEnd pd]
def set (f : Field) (a v : ℕ) : Kheap := { s with mem := store32 s.mem (a + f.offset) v }

@[simps -fullyApplied heapHead heapTail currentHeapEnd pd mem]
def setTail (a : ℕ) : Kheap := { s with heapTail := a }

def newFree (block size next prev : ℕ) : Kheap :=
  ((((s.set .magic block heapMagicFree).set .size block size).set .isFree block 1).set
    .next block next).set .prev block prev

/-- `block` is the predecessor of the node after it, or the tail. -/
def pointBack (after block : ℕ) : Kheap :=
  if after ≠ 0 then s.set .prev after block else s.setTail block

def freeMemory : ℕ :=
  if s.totalMemory < s.pmm.usedMemory then 0 else s.totalMemory - s.pmm.usedMemory

def largePage (e : ℕ) : Bool := decide (e / 128 % 2 = 1)

def present (e : ℕ) : Bool := decide (e % 2 = 1)

def pdIndex (va : ℕ) : ℕ := va / 2 ^ 22

def ptIndex (va : ℕ) : ℕ := va / 2 ^ 12 % 1024

/-- `pt_virt[j]`, for the table of the directory entry `k`. -/
def tableWord (k j : ℕ) : ℕ :=
  if k = 1023 then s.pd j
  else if largePage (s.pd k) then load32 s.mem (k * 2 ^ 22 + 4 * j)
  else s.pt k j

def setTableWord (k j v : ℕ) : Kheap :=
  if k = 1023 then { s with pd := Function.update s.pd j v }
  else if largePage (s.pd k) then { s with mem := store32 s.mem (k * 2 ^ 22 + 4 * j) v }
  else { s with pt := Function.update s.pt k (Function.update (s.pt k) j v) }

/-- The first half of `map_page`: a missing table is allocated and cleared. -/
def ensureTable (k : ℕ) : Bool × Kheap :=
  if present (s.pd k) then (true, s)
  else
    match pmmAllocFrame s.pmm with
    | (none, p) => (false, { s with pmm := p })
    | (some t, p) =>
      (true, { s with
        pmm := p
        pd := Function.update s.pd k (t * 4096 + 3)
        pt := Function.update s.pt k fun _ => 0 })

/-- `map_page`, for a page of the kernel. -/
def mapPage (va frame : ℕ) : Bool × Kheap :=
  match s.ensureTable (pdIndex va) with
  | (false, s) => (false, s)
  | (true, s) =>
    let e := s.tableWord (pdIndex va) (ptIndex va)
    if present e ∧ e / 4096 ≠ frame then (false, s)
    else (true, s.setTableWord (pdIndex va) (ptIndex va) (frame * 4096 + 3))

def unmapPage (va : ℕ) : Kheap :=
  if present (s.pd (pdIndex va)) then s.setTableWord (pdIndex va) (ptIndex va) 0 else s

def freeEntry (e : ℕ) : Kheap :=
  if present e then { s with pmm := pmmFreeFrame s.pmm (e / 4096) } else s

/-- One page of `heap_rollback`. -/
def rollbackPage (va : ℕ) : Kheap :=
  let e := s.tableWord (pdIndex va) (ptIndex va)
  if present (s.pd (pdIndex va)) ∧ present e then
    (s.freeEntry e).setTableWord (pdIndex va) (ptIndex va) 0
  else s

def heapRollback (start count : ℕ) : Kheap :=
  { (List.range count).foldl (fun s j => s.rollbackPage (u32 (start + j * 4096))) s with
    currentHeapEnd := start }

/-- The loop of `heap_grow`: `i` pages from `start` on are installed, and so many are left. -/
def growPages (start : ℕ) : ℕ → ℕ → Kheap → Bool × Kheap
  | 0, _, s => (true, s)
  | n + 1, i, s =>
    match pmmAllocFrame s.pmm with
    | (none, p) => (false, { s with pmm := p }.heapRollback start i)
    | (some f, p) =>
      match { s with pmm := p }.mapPage s.currentHeapEnd f with
      | (false, s) => (false, { s with pmm := pmmFreeFrame s.pmm f }.heapRollback start i)
      | (true, s) =>
        growPages start n (i + 1) { s with currentHeapEnd := u32 (s.currentHeapEnd + 4096) }

def heapBlocksAdjacent (a b : ℕ) : Bool := decide (u32 (a + 32 + s.get .size a) = b)

def linkTail (start : ℕ) : Kheap := (s.set .next s.heapTail start).set .prev start s.heapTail

/-- The tail takes in the new block where it ends, or the new block is the tail. -/
def settleTail (start total : ℕ) : Kheap :=
  if s.get .isFree s.heapTail ≠ 0 ∧ s.heapBlocksAdjacent s.heapTail start then
    (s.set .size s.heapTail (u32 (s.get .size s.heapTail + total))).set .next s.heapTail 0
  else s.setTail start

def attach (start total : ℕ) : Kheap :=
  if s.heapHead = 0 then { s with heapHead := start, heapTail := start }
  else (s.linkTail start).settleTail start total

/-- The rest of `heap_grow`: the new pages become a block at the end of the list. -/
def appendBlock (start total : ℕ) : Kheap :=
  (s.newFree start (u32 (total + 2 ^ 32 - 32)) 0 s.heapTail).attach start total

/-- The pages `heap_grow` needs for a block of so many bytes. -/
def pagesFor (size : ℕ) : ℕ := u32 (u32 (size + 32) + 0xFFF) / 0x1000

def heapGrow (size : ℕ) : Bool × Kheap :=
  let total := u32 (pagesFor size * 0x1000)
  if s.freeMemory < total then (false, s)
  else
    match growPages s.currentHeapEnd (pagesFor size) 0 s with
    | (false, s) => (false, s)
    | (true, t) => (true, t.appendBlock s.currentHeapEnd total)

def initKheap : Except Halt Kheap :=
  match { s with heapHead := 0, heapTail := 0 }.heapGrow 1 with
  | (false, _) => .error .initFailed
  | (true, s) => .ok s

def chainFuel : ℕ := 2 ^ 27

/-- The inner loop of `kmalloc`: the first block that is free and large enough. -/
def findFit (size : ℕ) : ℕ → ℕ → Except Halt (Option ℕ)
  | 0, _ => .error .spins
  | fuel + 1, curr =>
    if curr = 0 then .ok none
    else if s.get .magic curr ≠ heapMagicAllocated ∧ s.get .magic curr ≠ heapMagicFree then
      .error .chainCorrupted
    else if s.get .isFree curr ≠ 0 ∧ size ≤ s.get .size curr then .ok (some curr)
    else findFit size fuel (s.get .next curr)

def splitBlock (size curr : ℕ) : Kheap :=
  let block := u32 (curr + 32 + size)
  let after := s.get .next curr
  let s := s.newFree block (u32 (s.get .size curr + 2 ^ 32 + 2 ^ 32 - size - 32)) after curr
  let s := s.pointBack after block
  (s.set .size curr size).set .next curr block

def takeBlock (size curr : ℕ) : Kheap :=
  let s := if u32 (u32 (size + 32) + 4) < s.get .size curr then s.splitBlock size curr else s
  (s.set .isFree curr 0).set .magic curr heapMagicAllocated

/-- The outer loop of `kmalloc`. -/
def kmallocLoop (size : ℕ) : ℕ → Kheap → Except Halt (ℕ × Kheap)
  | 0, _ => .error .spins
  | fuel + 1, s =>
    match s.findFit size chainFuel s.heapHead with
    | .error h => .error h
    | .ok (some curr) => .ok (u32 (curr + 32), s.takeBlock size curr)
    | .ok none =>
      match s.heapGrow size with
      | (false, s) => .ok (0, s)
      | (true, s) => kmallocLoop size fuel s

def roundUp (size : ℕ) : ℕ := u32 (size + 15) / 16 * 16

def kmalloc (size : ℕ) : Except Halt (ℕ × Kheap) :=
  if size = 0 then .ok (0, s) else kmallocLoop (roundUp size) chainFuel s

/-- The block `a` takes in the block `b` behind it. -/
def absorb (a b : ℕ) : Kheap :=
  let s := s.set .size a (u32 (s.get .size a + (s.get .size b + 32)))
  let after := s.get .next b
  (s.set .next a after).pointBack after a

def mergeNext (block : ℕ) : Kheap :=
  let n := s.get .next block
  if n ≠ 0 ∧ s.get .isFree n ≠ 0 ∧ s.heapBlocksAdjacent block n then s.absorb block n else s

/-- The free block before it takes in the block; the result is what is left. -/
def mergePrev (block : ℕ) : ℕ × Kheap :=
  let p := s.get .prev block
  if p ≠ 0 ∧ s.get .isFree p ≠ 0 ∧ s.heapBlocksAdjacent p block then (p, s.absorb p block)
  else (block, s)

def releasePage : Kheap :=
  let s := { s with currentHeapEnd := u32 (s.currentHeapEnd + 2 ^ 32 - 4096) }
  let va := s.currentHeapEnd
  (s.freeEntry (s.tableWord (pdIndex va) (ptIndex va))).unmapPage va

def releasePages (n : ℕ) : Kheap := releasePage^[n] s

def dropBlock (block : ℕ) : Kheap :=
  let p := s.get .prev block
  if p ≠ 0 then (s.set .next p 0).setTail p
  else { s with heapHead := 0, heapTail := 0 }

def shrink (block : ℕ) : Kheap :=
  if block = s.heapTail ∧ 4096 ≤ s.get .size block then
    let pages := s.get .size block / 4096
    let s := s.releasePages pages
    let s := s.set .size block (u32 (s.get .size block + 2 ^ 32 - pages * 4096))
    if s.get .size block < 32 then s.dropBlock block else s
  else s

def kfree (ptr : ℕ) : Except Halt Kheap :=
  if ptr = 0 then .ok s
  else
    let block := u32 (ptr + 2 ^ 32 - 32)
    if s.get .magic block = heapMagicFree ∨ s.get .isFree block = 1 then .error .doubleFree
    else if s.get .magic block ≠ heapMagicAllocated then .error .invalidPointer
    else
      let s := (s.set .isFree block 1).set .magic block heapMagicFree
      let r := (s.mergeNext block).mergePrev block
      .ok (r.2.shrink r.1)

def krealloc (ptr newSize : ℕ) : Except Halt (ℕ × Kheap) :=
  if newSize = 0 then
    match s.kfree ptr with
    | .error h => .error h
    | .ok s => .ok (0, s)
  else if ptr = 0 then s.kmalloc newSize
  else
    let block := u32 (ptr + 2 ^ 32 - 32)
    if s.get .magic block ≠ heapMagicAllocated then .ok (0, s)
    else if newSize ≤ s.get .size block then .ok (ptr, s)
    else
      match s.kmalloc newSize with
      | .error h => .error h
      | .ok (0, t) => .ok (0, t)
      | .ok (newPtr, t) =>
        match { t with mem := copyBytes newPtr ptr (s.get .size block) t.mem }.kfree ptr with
        | .error h => .error h
        | .ok t => .ok (newPtr, t)

def kmallocSize (ptr : ℕ) : ℕ :=
  if ptr = 0 then 0
  else if s.get .magic (u32 (ptr + 2 ^ 32 - 32)) ≠ heapMagicAllocated then 0
  else s.get .size (u32 (ptr + 2 ^ 32 - 32))

end Kheap

/-- The calls of the heap, with the pointers and sizes their callers pass. -/
inductive HeapCall
  | kmalloc (size : ℕ)
  | kfree (ptr : ℕ)
  | krealloc (ptr size : ℕ)

/-- What the rest of the kernel does before a call: to the frames, to the tables, and to memory. -/
structure Between where
  pmm : Pmm → Pmm
  pd : (ℕ → ℕ) → ℕ → ℕ
  pt : (ℕ → ℕ → ℕ) → ℕ → ℕ → ℕ
  mem : Buf → Buf

structure HeapStep where
  between : Between
  call : HeapCall

/-- The bytes before and after a `krealloc` that returned a pointer. -/
structure HeapMove where
  oldSize : ℕ
  newSize : ℕ
  before : Buf
  after : Buf

/-- The heap, the pointers its callers hold with the sizes they asked for, and the moves so far. -/
structure HeapSys where
  heap : Kheap
  live : List (ℕ × ℕ)
  moves : List HeapMove
  halted : Option Halt

def payloadByte (live : List (ℕ × ℕ)) (x : ℕ) : Bool :=
  live.any fun e => decide (e.1 ≤ x) && decide (x < e.1 + e.2)

/-- The rest of the kernel writes to what it was given, and to the user half of the directory. -/
def Kheap.between (s : Kheap) (b : Between) (live : List (ℕ × ℕ)) : Kheap :=
  { s with
    pmm := b.pmm s.pmm
    pd := fun k => if k < 768 then b.pd s.pd k else s.pd k
    pt := b.pt s.pt
    mem := fun x =>
      if kheapStart ≤ x ∧ x < s.currentHeapEnd ∧ payloadByte live x = false then s.mem x
      else b.mem s.mem x }

def giveUp (live : List (ℕ × ℕ)) (ptr : ℕ) : List (ℕ × ℕ) := live.filter fun e => e.1 ≠ ptr

namespace HeapSys

variable (t : HeapSys) (s : Kheap)

def kmalloc (size : ℕ) : HeapSys :=
  match s.kmalloc size with
  | .error h => { t with heap := s, halted := some h }
  | .ok (0, s) => { t with heap := s }
  | .ok (p, s) => { t with heap := s, live := (p, size) :: t.live }

def kfree (ptr : ℕ) : HeapSys :=
  match s.kfree ptr with
  | .error h => { t with heap := s, halted := some h }
  | .ok s => { t with heap := s, live := giveUp t.live ptr }

/-- The move of `ptr` to `p`, where `ptr` was held. -/
def moved (ptr size p : ℕ) (s' : Kheap) : List HeapMove :=
  match t.live.find? fun e => e.1 = ptr with
  | some e => ⟨e.2, size, fun k => s.mem (ptr + k), fun k => s'.mem (p + k)⟩ :: t.moves
  | none => t.moves

def krealloc (ptr size : ℕ) : HeapSys :=
  match s.krealloc ptr size with
  | .error h => { t with heap := s, halted := some h }
  | .ok (0, s) => { t with heap := s, live := if size = 0 then giveUp t.live ptr else t.live }
  | .ok (p, s') =>
    { t with heap := s', live := (p, size) :: giveUp t.live ptr, moves := t.moved s ptr size p s' }

end HeapSys

def heapStep (t : HeapSys) (e : HeapStep) : HeapSys :=
  if t.halted.isSome then t
  else
    let s := t.heap.between e.between t.live
    match e.call with
    | .kmalloc size => t.kmalloc s size
    | .kfree ptr => t.kfree s ptr
    | .krealloc ptr size => t.krealloc s ptr size

def heapBoot (m : Kheap) : Kheap :=
  { m with heapHead := 0, heapTail := 0, currentHeapEnd := kheapStart }

/-- The heap that `init_kheap` leaves. -/
def HeapSys.init (m : Kheap) : HeapSys :=
  match (heapBoot m).initKheap with
  | .error h => ⟨heapBoot m, [], [], some h⟩
  | .ok s => ⟨s, [], [], none⟩

def heapRun (t : HeapSys) (calls : List HeapStep) : HeapSys := calls.foldl heapStep t

/-- A block of the list. -/
structure HeapBlock where
  addr : ℕ
  size : ℕ
  free : Bool
  deriving DecidableEq, Repr

def HeapBlock.stop (b : HeapBlock) : ℕ := b.addr + 32 + b.size

/-- What a header says besides the links. -/
structure HeapHeader where
  magic : ℕ
  size : ℕ
  isFree : ℕ
  deriving DecidableEq, Repr

def HeapBlock.header (b : HeapBlock) : HeapHeader :=
  if b.free then ⟨heapMagicFree, b.size, 1⟩ else ⟨heapMagicAllocated, b.size, 0⟩

def Kheap.node (s : Kheap) (a : ℕ) : Lib.Node ℕ HeapHeader :=
  ⟨⟨s.get .magic a, s.get .size a, s.get .isFree a⟩, s.get .next a, s.get .prev a⟩

/-- The list of blocks is `bs`, linked both ways between `heap_head` and `heap_tail`. -/
structure Kheap.Lists (s : Kheap) (bs : List HeapBlock) : Prop where
  head : s.heapHead = Lib.front HeapBlock.addr bs 0
  tail : s.heapTail = Lib.back HeapBlock.addr 0 bs
  links : Lib.Chained HeapBlock.addr HeapBlock.header s.node 0 bs 0

/-- The blocks are in the heap's pages, in the order of their addresses and none in another. -/
structure Kheap.Places (s : Kheap) (bs : List HeapBlock) : Prop where
  order : bs.Pairwise fun b c => b.stop ≤ c.addr
  start : ∀ b ∈ bs, kheapStart ≤ b.addr
  stop : ∀ b ∈ bs, b.stop ≤ s.currentHeapEnd
  addr : ∀ b ∈ bs, 16 ∣ b.addr
  size : ∀ b ∈ bs, 16 ∣ b.size

/-- The pointers that are held are the payloads of allocated blocks, large enough. -/
structure LiveBlocks (bs : List HeapBlock) (live : List (ℕ × ℕ)) : Prop where
  nodup : (live.map Prod.fst).Nodup
  block : ∀ e ∈ live, ∃! b, b ∈ bs ∧ b.free = false ∧ e.1 = b.addr + 32 ∧ e.2 ≤ b.size

def HeapMove.Kept (m : HeapMove) : Prop := ∀ k < min m.oldSize m.newSize, m.after k = m.before k

structure HeapSound (t : HeapSys) : Prop where
  blocks : ∃ bs, t.heap.Lists bs ∧ t.heap.Places bs ∧ LiveBlocks bs t.live
  moves : ∀ m ∈ t.moves, m.Kept
  halted : t.halted = none ∨ t.halted = some .initFailed

def Kheap.ordinary (s : Kheap) (va : ℕ) : Prop :=
  Kheap.pdIndex va < 1023 ∧ Kheap.largePage (s.pd (Kheap.pdIndex va)) = false

/-- Of the pages that the loop of `heap_grow` maps, none is other than ordinary. -/
def Kheap.growsOrdinary : ℕ → Kheap → Prop
  | 0, _ => True
  | n + 1, s =>
    match pmmAllocFrame s.pmm with
    | (none, _) => True
    | (some f, p) =>
      match { s with pmm := p }.mapPage s.currentHeapEnd f with
      | (false, _) => True
      | (true, t) => s.ordinary s.currentHeapEnd ∧
          growsOrdinary n { t with currentHeapEnd := u32 (t.currentHeapEnd + 4096) }

/-- `heap_grow` maps ordinary pages only. -/
def Kheap.GrowOrdinary (s : Kheap) (size : ℕ) : Prop :=
  u32 (Kheap.pagesFor size * 0x1000) ≤ s.freeMemory → s.growsOrdinary (Kheap.pagesFor size)

/-- If `kmalloc` has to grow the heap, it maps ordinary pages only. -/
def Kheap.MallocOrdinary (s : Kheap) (size : ℕ) : Prop :=
  size ≠ 0 → s.findFit (Kheap.roundUp size) Kheap.chainFuel s.heapHead = .ok none →
    s.GrowOrdinary (Kheap.roundUp size)

/-- A call on pointers that are held, with a size of at most 2^31, that maps ordinary pages. -/
def OrdinaryCall (t : HeapSys) (e : HeapStep) : Prop :=
  let s := t.heap.between e.between t.live
  match e.call with
  | .kmalloc size => size ≤ 2 ^ 31 ∧ s.MallocOrdinary size
  | .kfree ptr => ptr = 0 ∨ ptr ∈ t.live.map Prod.fst
  | .krealloc ptr size => size ≤ 2 ^ 31 ∧ (ptr = 0 ∨ ptr ∈ t.live.map Prod.fst) ∧
      (ptr = 0 ∨ s.kmallocSize ptr < size → s.MallocOrdinary size)

end EsdumanOS
