import EsdumanOS.AddressSpace
import EsdumanOS.Kheap
import EsdumanOS.Lib.OneWay

/-!
# The allocator of the programs

`umalloc.h`: a list of blocks with headers of 16 bytes that fills the break heap, and blocks with a
mapping of their own. The kernel's part is its contract: `brk` moves the break to the end of the
page asked for, `mmap` gives pages that are not mapped, or they refuse.
-/

namespace EsdumanOS

open Lib (load32 store32 copyBytes)

def umallocMmapMin : ℕ := 0x10000
def umallocMagic : ℕ := 0xC0FFEE01

/-- The members of `umalloc_block_t`. -/
inductive UField
  | magic | size | next | isFree | fromMmap
  deriving DecidableEq, Repr

/-- A header. -/
structure UHeader where
  magic : ℕ
  size : ℕ
  isFree : ℕ
  fromMmap : ℕ
  deriving DecidableEq, Repr

/-- The memory of a program, `umalloc_head`, the break, and the pages of its mappings. -/
structure UHeap where
  mem : Buf
  head : ℕ
  brk : ℕ
  maps : Finset ℕ

/-- What the kernel answers to the calls of one allocation. -/
structure KernelReply where
  brkOk : Bool
  mmapOk : Bool
  mmapPage : ℕ

namespace UHeap

variable (s : UHeap) (k : KernelReply)

/-- A member of the header at `a`. -/
def get (f : UField) (a : ℕ) : ℕ :=
  match f with
  | .magic => load32 s.mem a
  | .size => load32 s.mem (a + 4)
  | .next => load32 s.mem (a + 8)
  | .isFree => (s.mem (a + 12)).toNat
  | .fromMmap => (s.mem (a + 13)).toNat

@[simps -fullyApplied head brk maps]
def set (f : UField) (a v : ℕ) : UHeap :=
  { s with mem := match f with
    | .magic => store32 s.mem a v
    | .size => store32 s.mem (a + 4) v
    | .next => store32 s.mem (a + 8) v
    | .isFree => Function.update s.mem (a + 12) (UInt8.ofNat v)
    | .fromMmap => Function.update s.mem (a + 13) (UInt8.ofNat v) }

def newBlock (a size next isFree fromMmap : ℕ) : UHeap :=
  ((((s.set .magic a umallocMagic).set .size a size).set .next a next).set .isFree a isFree).set
    .fromMmap a fromMmap

def pageEnd (addr : ℕ) : ℕ := u32 (addr + pageSize - 1) / pageSize * pageSize

def zeroed (lo hi : ℕ) : UHeap :=
  { s with mem := fun x => if lo ≤ x ∧ x < hi then 0 else s.mem x }

/-- `brk`, for more than there is. -/
def sysBrk (addr : ℕ) : ℕ × UHeap :=
  let last := pageEnd addr
  if k.brkOk = true ∧ s.brk ≤ addr ∧ addr ≤ last ∧ last ≤ userMmapFloor * pageSize then
    (last, { s.zeroed s.brk last with brk := last })
  else (s.brk, s)

/-- `mmap`. -/
def sysMmap (length : ℕ) : ℕ × UHeap :=
  let pages := Finset.Ico k.mmapPage (k.mmapPage + pagesFor length)
  if k.mmapOk = true ∧ userMmapFloor ≤ k.mmapPage ∧ k.mmapPage + pagesFor length ≤ userMmapTop ∧
      Disjoint pages s.maps then
    (k.mmapPage * pageSize,
      { s.zeroed (k.mmapPage * pageSize) ((k.mmapPage + pagesFor length) * pageSize) with
        maps := s.maps ∪ pages })
  else (0xFFFFFFFF, s)

/-- `munmap`. -/
def sysMunmap (addr length : ℕ) : UHeap :=
  { s with maps := s.maps \ Finset.Ico (addr / pageSize) (addr / pageSize + pagesFor length) }

def umallocRound (n : ℕ) : ℕ := u32 (n + 15) / 16 * 16

def umallocAdjacent (a b : ℕ) : Bool := decide (u32 (a + 16 + s.get .size a) = b)

def umallocSplit (b need : ℕ) : UHeap :=
  if s.get .size b < u32 (u32 (need + 16) + 16) then s
  else
    let rest := u32 (b + 16 + need)
    let s := s.newBlock rest (u32 (s.get .size b + 2 ^ 32 + 2 ^ 32 - need - 16)) (s.get .next b) 1 0
    (s.set .size b need).set .next b rest

/-- `umalloc_grow`: the new block, or 0. -/
def umallocGrow (need tail : ℕ) : ℕ × UHeap :=
  let total := u32 (need + 16)
  let cur := s.brk
  if cur = 0 then (0, s)
  else
    let r := s.sysBrk k (u32 (cur + total))
    if r.1 < u32 (cur + total) then (0, r.2)
    else
      let s := r.2.newBlock cur (u32 (r.1 + 2 ^ 32 + 2 ^ 32 - cur - 16)) 0 0 0
      (cur, if tail ≠ 0 then s.set .next tail cur else { s with head := cur })

def listFuel : ℕ := 2 ^ 28

/-- The walk of `umalloc`: the first block that is free and large enough, or the last one. -/
def findFree (need : ℕ) : ℕ → ℕ → ℕ → Option (ℕ ⊕ ℕ)
  | 0, _, _ => none
  | fuel + 1, cur, tail =>
    if cur = 0 then some (.inr tail)
    else if s.get .isFree cur ≠ 0 ∧ need ≤ s.get .size cur then some (.inl cur)
    else findFree need fuel (s.get .next cur) cur

def mmapBlock (need : ℕ) : ℕ × UHeap :=
  let r := s.sysMmap k (u32 (need + 16))
  if r.1 = 0xFFFFFFFF then (0, r.2) else (u32 (r.1 + 16), r.2.newBlock r.1 need 0 0 1)

def breakBlock (need : ℕ) : Option (ℕ × UHeap) :=
  match s.findFree need listFuel s.head 0 with
  | none => none
  | some (.inl cur) => some (u32 (cur + 16), (s.umallocSplit cur need).set .isFree cur 0)
  | some (.inr tail) =>
    let g := s.umallocGrow k need tail
    some (if g.1 = 0 then (0, g.2) else (u32 (g.1 + 16), g.2.umallocSplit g.1 need))

/-- `umalloc`: the address, or 0. There is no result when the walk of the list does not end. -/
def umalloc (size : ℕ) : Option (ℕ × UHeap) :=
  let need := umallocRound size
  if size = 0 then some (0, s)
  else if need < size ∨ u32 (need + 16) < need then some (0, s)
  else if umallocMmapMin ≤ u32 (need + 16) then some (s.mmapBlock k need)
  else s.breakBlock k need

def ucalloc (n size : ℕ) : Option (ℕ × UHeap) :=
  if n ≠ 0 ∧ 0xFFFFFFFF / n < size then some (0, s)
  else
    match s.umalloc k (u32 (n * size)) with
    | none => none
    | some (0, s) => some (0, s)
    | some (p, s) => some (p, s.zeroed p (p + u32 (n * size)))

/-- The block `a` takes in the block `b` behind it. -/
def absorb (a b : ℕ) : UHeap :=
  let s := s.set .size a (u32 (s.get .size a + (16 + s.get .size b)))
  s.set .next a (s.get .next b)

/-- The first loop of `ufree`: the free blocks behind a block are taken in. -/
def mergeForward (b : ℕ) : ℕ → UHeap → Option UHeap
  | 0, _ => none
  | fuel + 1, s =>
    let n := s.get .next b
    if n ≠ 0 ∧ s.get .isFree n ≠ 0 ∧ s.umallocAdjacent b n then mergeForward b fuel (s.absorb b n)
    else some s

/-- The second loop of `ufree`: the block before a block, or 0. -/
def findPrev (b : ℕ) : ℕ → ℕ → Option ℕ
  | 0, _ => none
  | fuel + 1, prev =>
    if prev = 0 ∨ s.get .next prev = b then some prev else findPrev b fuel (s.get .next prev)

def mergeBack (prev b : ℕ) : UHeap :=
  if prev ≠ 0 ∧ s.get .isFree prev ≠ 0 ∧ s.umallocAdjacent prev b then s.absorb prev b else s

def ufree (ptr : ℕ) : Option UHeap :=
  let b := u32 (ptr + 2 ^ 32 - 16)
  if ptr = 0 then some s
  else if s.get .magic b ≠ umallocMagic ∨ s.get .isFree b ≠ 0 then some s
  else if s.get .fromMmap b ≠ 0 then
    some ((s.set .magic b 0).sysMunmap b (u32 (s.get .size b + 16)))
  else do
    let s ← mergeForward b listFuel (s.set .isFree b 1)
    let prev ← s.findPrev b listFuel s.head
    pure (s.mergeBack prev b)

def urealloc (ptr size : ℕ) : Option (ℕ × UHeap) :=
  let b := u32 (ptr + 2 ^ 32 - 16)
  if ptr = 0 then s.umalloc k size
  else if size = 0 then (s.ufree ptr).map fun s => (0, s)
  else if s.get .magic b ≠ umallocMagic then some (0, s)
  else if umallocRound size ≤ s.get .size b then some (ptr, s)
  else
    match s.umalloc k size with
    | none => none
    | some (0, s) => some (0, s)
    | some (fresh, s) =>
      let s := { s with mem := copyBytes fresh ptr (s.get .size b) s.mem }
      (s.ufree ptr).map fun s => (fresh, s)

end UHeap

inductive UCall
  | umalloc (size : ℕ)
  | ufree (ptr : ℕ)
  | ucalloc (n size : ℕ)
  | urealloc (ptr size : ℕ)

/-- What the program writes before a call, and the kernel's answers under it. -/
structure UStep where
  writes : Buf → Buf
  reply : KernelReply
  call : UCall

/-- A `urealloc` of a live pointer: the sizes, the result, and memory before and after. -/
structure UMove where
  ptr : ℕ
  oldSize : ℕ
  newSize : ℕ
  result : ℕ
  before : Buf
  after : Buf

/-- A program, its first break, the pointers it holds with their sizes, and the moves so far. -/
structure USys where
  heap : UHeap
  start : ℕ
  live : List (ℕ × ℕ)
  moves : List UMove
  stuck : Bool

/-- The program writes to what it was given, and to memory that is not the allocator's. -/
def UHeap.written (s : UHeap) (writes : Buf → Buf) (start : ℕ) (live : List (ℕ × ℕ)) : UHeap :=
  { s with mem := fun x =>
      if (start ≤ x ∧ x < s.brk ∨ x / pageSize ∈ s.maps) ∧ payloadByte live x = false then s.mem x
      else writes s.mem x }

namespace USys

variable (t : USys) (s : UHeap)

def took (size : ℕ) : Option (ℕ × UHeap) → USys
  | none => { t with heap := s, stuck := true }
  | some (0, s) => { t with heap := s }
  | some (p, s) => { t with heap := s, live := (p, size) :: t.live }

def ufree (ptr : ℕ) : USys :=
  match s.ufree ptr with
  | none => { t with heap := s, stuck := true }
  | some s => { t with heap := s, live := giveUp t.live ptr }

/-- The move of `ptr`, if it was held. -/
def moved (ptr size result : ℕ) (s' : UHeap) : List UMove :=
  match t.live.find? fun e => e.1 = ptr with
  | some e => ⟨ptr, e.2, size, result, s.mem, s'.mem⟩ :: t.moves
  | none => t.moves

def urealloc (k : KernelReply) (ptr size : ℕ) : USys :=
  match s.urealloc k ptr size with
  | none => { t with heap := s, stuck := true }
  | some (0, s') =>
    { t with
      heap := s'
      live := if size = 0 then giveUp t.live ptr else t.live
      moves := t.moved s ptr size 0 s' }
  | some (p, s') =>
    { t with
      heap := s', live := (p, size) :: giveUp t.live ptr, moves := t.moved s ptr size p s' }

end USys

def uStep (t : USys) (e : UStep) : USys :=
  if t.stuck then t
  else
    let s := t.heap.written e.writes t.start t.live
    match e.call with
    | .umalloc size => t.took s size (s.umalloc e.reply size)
    | .ufree ptr => t.ufree s ptr
    | .ucalloc n size => t.took s (n * size) (s.ucalloc e.reply n size)
    | .urealloc ptr size => t.urealloc s e.reply ptr size

def uRun (t : USys) (calls : List UStep) : USys := calls.foldl uStep t

def uStart (mem : Buf) (brk : ℕ) : USys := ⟨⟨mem, 0, brk, ∅⟩, brk, [], [], false⟩

def LiveCall (t : USys) (e : UStep) : Prop :=
  match e.call with
  | .umalloc size => size < 2 ^ 32
  | .ufree ptr => ptr = 0 ∨ ptr ∈ t.live.map Prod.fst
  | .ucalloc n size => n < 2 ^ 32 ∧ size < 2 ^ 32
  | .urealloc ptr size => size < 2 ^ 32 ∧ (ptr = 0 ∨ ptr ∈ t.live.map Prod.fst)

/-- A size that `umalloc_round` does not wrap is asked for of `urealloc`. -/
def RoundsUp (e : UStep) : Prop :=
  match e.call with
  | .urealloc ptr size => ptr = 0 ∨ size ≤ 0xFFFFFFF0
  | _ => True

/-- A block. -/
structure UBlock where
  addr : ℕ
  size : ℕ
  free : Bool
  deriving DecidableEq, Repr

def UBlock.stop (b : UBlock) : ℕ := b.addr + 16 + b.size

def UBlock.header (b : UBlock) : UHeader := ⟨umallocMagic, b.size, if b.free then 1 else 0, 0⟩

def UHeap.node (s : UHeap) (a : ℕ) : UHeader × ℕ :=
  (⟨s.get .magic a, s.get .size a, s.get .isFree a, s.get .fromMmap a⟩, s.get .next a)

/-- The list of blocks is `bs`. -/
structure UHeap.Lists (s : UHeap) (bs : List UBlock) : Prop where
  head : s.head = Lib.front UBlock.addr bs 0
  links : Lib.Strung UBlock.addr UBlock.header s.node bs 0

/-- The blocks lie one behind the other from `a` to `stop`. -/
def Tiles : ℕ → List UBlock → ℕ → Prop
  | a, [], stop => a = stop
  | a, b :: bs, stop => b.addr = a ∧ Tiles b.stop bs stop

def NoFreePair (bs : List UBlock) : Prop :=
  bs.IsChain fun b c => ¬ (b.free = true ∧ c.free = true)

/-- A live pointer has its bytes: in a block of the list that is in use, or in a mapping. -/
def Backed (s : UHeap) (bs : List UBlock) (e : ℕ × ℕ) : Prop :=
  (∃ b ∈ bs, b.free = false ∧ e.1 = b.addr + 16 ∧ e.2 ≤ b.size) ∨
    ∀ x, e.1 ≤ x → x < e.1 + e.2 → x / pageSize ∈ s.maps

/-- A move kept the bytes, or was refused and left the old block. To ask for 0 bytes is to free. -/
def UMove.Kept (m : UMove) : Prop :=
  (m.result ≠ 0 ∨ m.newSize = 0) ∧
      (∀ i < min m.oldSize m.newSize, m.after (m.result + i) = m.before (m.ptr + i)) ∨
    m.result = 0 ∧ ∀ i < m.oldSize, m.after (m.ptr + i) = m.before (m.ptr + i)

structure USound (t : USys) : Prop where
  blocks : ∃ bs, t.heap.Lists bs ∧ (bs.map UBlock.addr).Pairwise (· < ·) ∧
    Tiles t.start bs t.heap.brk ∧ NoFreePair bs ∧ ∀ e ∈ t.live, Backed t.heap bs e
  apart : t.live.Pairwise fun e f => e.1 + e.2 ≤ f.1 ∨ f.1 + f.2 ≤ e.1
  moves : ∀ m ∈ t.moves, m.Kept
  ends : t.stuck = false

end EsdumanOS
