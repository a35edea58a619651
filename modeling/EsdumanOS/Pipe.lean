import EsdumanOS.Descriptors
import EsdumanOS.Lib.Ring

/-!
# Pipes

The ring of `pipe.c` with its two positions, which run freely modulo `2 ^ 32`. A run interleaves the
calls of any tasks with the copying and closing of ends; a call that has to wait runs again from the
start.
-/

namespace EsdumanOS

open Lib Function

def pipeSize : ℕ := 4096

/-- `pipe_t`. -/
structure PipeRing where
  buffer : Buf
  head : ℕ
  tail : ℕ
  refs : Pipe
  brokenReported : Bool

/-- `tail - head`. -/
def PipeRing.used (p : PipeRing) : ℕ :=
  u32 (p.tail + 2 ^ 32 - p.head)

/-- The loop of `pipe_read`, with the number of bytes still wanted. -/
def pipeTake : ℕ → PipeRing → List UInt8 × PipeRing
  | 0, p => ([], p)
  | n + 1, p =>
    if p.head = p.tail then ([], p)
    else
      let r := pipeTake n { p with head := u32 (p.head + 1) }
      (p.buffer (p.head % pipeSize) :: r.1, r.2)

def pipeRead (p : PipeRing) (size : ℤ) : (Errno ⊕ List UInt8) × PipeRing :=
  if size ≤ 0 then (.inl .inval, p)
  else if p.head = p.tail then
    if p.refs.writeRefs ≤ 0 then (.inr [], p) else (.inl .again, p)
  else
    let r := pipeTake size.toNat p
    (.inr r.1, r.2)

/-- The loop of `pipe_write`, over the bytes still to be written. -/
def pipePut : List UInt8 → PipeRing → ℕ × PipeRing
  | [], p => (0, p)
  | b :: bs, p =>
    if p.used < pipeSize then
      let r := pipePut bs { p with
        buffer := update p.buffer (p.tail % pipeSize) b, tail := u32 (p.tail + 1) }
      (r.1 + 1, r.2)
    else (0, p)

/-- The first `size` bytes of a buffer. -/
def Buf.bytes (buf : Buf) (size : ℤ) : List UInt8 :=
  (List.range size.toNat).map buf

def pipeWrite (p : PipeRing) (buf : Buf) (size : ℤ) : (Errno ⊕ ℕ) × PipeRing :=
  if size ≤ 0 then (.inl .inval, p)
  else if p.refs.readRefs ≤ 0 then (.inl .pipe, { p with brokenReported := true })
  else if pipeSize ≤ p.used then (.inl .again, p)
  else
    let r := pipePut (buf.bytes size) p
    (.inr r.1, r.2)

inductive PipeCall
  | read (size : ℤ)
  | write (buf : Buf) (size : ℤ)

/-- A pipe with the modes of its ends, the calls that wait, and the bytes that have gone in and come
out. -/
structure PipeSys where
  pipe : PipeRing
  ends : List ℕ
  parked : ℕ → Option PipeCall
  accepted : List UInt8
  returned : List UInt8

/-- A call by task `t`, which `syscall_block_and_restart` parks if there is nothing to do yet. -/
def PipeSys.run (s : PipeSys) (t : ℕ) : PipeCall → PipeSys
  | .read size =>
    match pipeRead s.pipe size with
    | (.inr bytes, p) =>
      { s with
        pipe := p, returned := s.returned ++ bytes, parked := update s.parked t none }
    | (.inl .again, p) =>
      { s with pipe := p, parked := update s.parked t (some (.read size)) }
    | (.inl _, p) => { s with pipe := p, parked := update s.parked t none }
  | .write buf size =>
    match pipeWrite s.pipe buf size with
    | (.inr n, p) =>
      { s with
        pipe := p, accepted := s.accepted ++ (buf.bytes size).take n
        parked := update s.parked t none }
    | (.inl .again, p) =>
      { s with pipe := p, parked := update s.parked t (some (.write buf size)) }
    | (.inl _, p) => { s with pipe := p, parked := update s.parked t none }

inductive PipeStep
  | call (t : ℕ) (c : PipeCall)
  | restart (t : ℕ)
  | kill (t : ℕ)
  | copyEnd (i : ℕ)
  | closeEnd (i : ℕ)

/-- A parked task makes no other call. The last end that goes away takes the pipe with it, as in
`dropPipe`. -/
def pipeStep (s : PipeSys) : PipeStep → PipeSys
  | .call t c => if (s.parked t).isSome then s else s.run t c
  | .restart t =>
    match s.parked t with
    | none => s
    | some c => s.run t c
  | .kill t => { s with parked := update s.parked t none }
  | .copyEnd i =>
    match s.ends[i]? with
    | none => s
    | some mode =>
      { s with ends := s.ends ++ [mode], pipe := { s.pipe with refs := s.pipe.refs.bump mode 1 } }
  | .closeEnd i =>
    match s.ends[i]? with
    | none => s
    | some mode =>
      let refs := s.pipe.refs.bump mode (-1)
      let refs := if refs.readRefs ≤ 0 ∧ refs.writeRefs ≤ 0 then ⟨false, 0, 0⟩ else refs
      { s with ends := s.ends.eraseIdx i, pipe := { s.pipe with refs := refs } }

def pipeRun (s : PipeSys) (steps : List PipeStep) : PipeSys :=
  steps.foldl pipeStep s

/-- What `create_pipe` makes of a slot of the pool, with one descriptor for each end. -/
def newPipe (buffer : Buf) : PipeSys where
  pipe := ⟨buffer, 0, 0, ⟨true, 1, 1⟩, false⟩
  ends := [0, 1]
  parked := fun _ => none
  accepted := []
  returned := []

/-- No byte is lost, doubled or reordered. End of file is read only from an empty pipe without a
write end; a write breaks exactly without a read end, and one of no bytes is refused. -/
structure PipeFifo (s : PipeSys) : Prop where
  fifo : s.returned <+: s.accepted
  inFlight : s.accepted.length ≤ s.returned.length + pipeSize
  eof : ∀ size, (pipeRead s.pipe size).1 = .inr [] → s.returned = s.accepted ∧ 1 ∉ s.ends
  broken : ∀ buf size, (pipeWrite s.pipe buf size).1 = .inl .pipe ↔
    0 < size ∧ ∀ mode ∈ s.ends, mode = 1
  refused : ∀ buf size, size ≤ 0 → (pipeWrite s.pipe buf size).1 = .inl .inval

end EsdumanOS
