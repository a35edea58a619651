import EsdumanOS.UserMemory

/-!
# Memory with an eager fork

What the programs of a machine see of their memory, and the machine `fork` stands for: every program
has pages of its own and a fork copies them. It has no frames, so a fork that fails is an input to
it, and so is a store that has to copy a shared frame and cannot.
-/

namespace EsdumanOS

structure Page where
  bytes : Buf
  writable : Bool

abbrev Space : Type := ℕ → Option Page

/-- What a program on directory `d` sees. A page shared until written counts as writable. -/
def spaceOf (mem : ℕ → Buf) (d : PageDir) : Space := fun v =>
  if d.accessible v then
    some ⟨mem (d.lookup v).frame, (d.lookup v).flags.writable || (d.lookup v).flags.cow⟩
  else none

def Machine.spaces (s : Machine) : List (Option Space) :=
  s.tasks.map (Option.map fun t => spaceOf s.mem t.dir)

def Space.store (m : Space) (addr : ℕ) (byte : UInt8) : WriteResult × Space :=
  match m (addr / pageSize) with
  | some ⟨bytes, true⟩ =>
    (.written, Function.update m (addr / pageSize)
      (some ⟨Function.update bytes (addr % pageSize) byte, true⟩))
  | some ⟨_, false⟩ => (.violation, m)
  | none => (.violation, m)

/-- A request to the eager machine, with the failures it cannot know of. -/
inductive EagerOp
  | fork (made : Bool)
  | write (kernelMode : Bool) (addr : ℕ) (byte : UInt8) (outOfMemory : Bool)
  | exit
  | none

structure EagerStep where
  task : ℕ
  op : EagerOp

def eagerExit (l : List (Option Space)) (i : ℕ) : List (Option Space) :=
  if i = 0 then l else l.set i none

/-- A program whose store is refused is ended; a store the kernel makes is given up. -/
def eagerWrite (l : List (Option Space)) (i : ℕ) (kernelMode : Bool) (r : WriteResult × Space) :
    List (Option Space) :=
  if r.1 = .written ∨ kernelMode = true then l.set i (some r.2) else eagerExit l i

def eagerStep (l : List (Option Space)) (a : EagerStep) : List (Option Space) :=
  match (l[a.task]?).join with
  | .none => l
  | some m =>
    match a.op with
    | .fork made => if made then l ++ [some m] else l
    | .write kernelMode addr byte outOfMemory =>
      eagerWrite l a.task kernelMode
        (if outOfMemory then (.outOfMemory, m) else m.store addr byte)
    | .exit => eagerExit l a.task
    | .none => l

def eagerRun (l : List (Option Space)) (as : List EagerStep) : List (Option Space) :=
  as.foldl eagerStep l

/-- Forks and stores, and what moves frames beside them. -/
inductive CowOp
  | fork
  | write (kernelMode : Bool) (addr : ℕ) (byte : UInt8)
  | exit
  | schedule
  | kernelHeap (taken released : ℕ)

def CowOp.toMemOp : CowOp → MemOp
  | fork => .fork
  | write kernelMode addr byte => .write kernelMode addr byte
  | exit => .exit
  | schedule => .schedule
  | kernelHeap taken released => .kernelHeap taken released

structure CowStep where
  env : VmEnv
  task : ℕ
  op : CowOp

def CowStep.toMemStep (a : CowStep) : MemStep := ⟨a.env, a.task, a.op.toMemOp⟩

def cowRun (s : Machine) (as : List CowStep) : Machine :=
  memRun s (as.map CowStep.toMemStep)

/-- The program on directory `d` may write page `v`, now or after a fault. -/
def PageDir.mayWrite (d : PageDir) (v : ℕ) : Prop :=
  d.accessible v = true ∧ ((d.lookup v).flags.writable = true ∨ (d.lookup v).flags.cow = true)

/-- The frame of page `v` is mapped elsewhere as well, and there is no frame for a copy or no way to
map it. -/
def NoCopy (e : VmEnv) (p : Pmm) (d : PageDir) (v : ℕ) : Prop :=
  1 < pmmFrameRefcount p (d.lookup v).frame ∧
    ((pmmAllocFrame p).1 = none ∨ (e.tempMap && e.copyOk v) = false)

/-- A store to page `v` needs a copy of the frame and does not get it. -/
def CopyFails (e : VmEnv) (p : Pmm) (d : PageDir) (v : ℕ) : Prop :=
  d.mayWrite v ∧ (d.lookup v).flags.writable = false ∧ NoCopy e p d v

instance (e : VmEnv) (p : Pmm) (d : PageDir) (v : ℕ) : Decidable (CopyFails e p d v) :=
  inferInstanceAs (Decidable ((_ ∧ (_ ∨ _)) ∧ _ ∧ _ ∧ (_ ∨ _)))

def eagerOp (s : Machine) (a : CowStep) (t : Task) : EagerOp :=
  match a.op with
  | .fork => .fork (decide ((Machine.sysFork a.env s a.task t).1 = .forked))
  | .write kernelMode addr byte =>
    .write kernelMode addr byte (decide (CopyFails a.env s.pmm t.dir (addr / pageSize)))
  | .exit => .exit
  | .schedule => .none
  | .kernelHeap _ _ => .none

def eagerSteps : Machine → List CowStep → List EagerStep
  | _, [] => []
  | s, a :: as =>
    ⟨a.task, match s.task? a.task with
      | some t => eagerOp s a t
      | none => .none⟩ :: eagerSteps (memStep s a.toMemStep) as

/-- A run from `s` looks to every program as if forks had copied its pages. -/
structure LooksEager (s : Machine) (as : List CowStep) : Prop where
  /-- Every program reads what it would read on the eager machine. -/
  spaces : (cowRun s as).spaces = eagerRun s.spaces (eagerSteps s as)
  /-- A store does what it would do there, unless the copy it needs fails. -/
  stores : ∀ env i t kernelMode addr byte, (cowRun s as).task? i = some t →
    (doWrite env (cowRun s as) i t kernelMode addr byte).1 =
      if CopyFails env (cowRun s as).pmm t.dir (addr / pageSize) then .outOfMemory
      else ((spaceOf (cowRun s as).mem t.dir).store addr byte).1
  /-- What the caller of a fork may not write, it may not write later, and neither may the child. -/
  parent : ∀ env i t v, s.task? i = some t → ¬ t.dir.mayWrite v →
    ∀ t', (cowRun (memStep s ⟨env, i, .fork⟩) as).task? i = some t' → ¬ t'.dir.mayWrite v
  child : ∀ env i t v, s.task? i = some t → ¬ t.dir.mayWrite v →
    (Machine.sysFork env s i t).1 = .forked →
    ∀ t', (cowRun (memStep s ⟨env, i, .fork⟩) as).task? s.tasks.length = some t' →
      ¬ t'.dir.mayWrite v

end EsdumanOS
