import EsdumanOS.UserMemory

/-!
# The break and the mappings of a program

What `brk`, `mmap` and `munmap` promise a program. The kernel keeps no list of what it has handed
out, so the list is kept beside the machine: the pages of the mappings granted and not given back.
-/

namespace EsdumanOS

/-- A page of the program that runs: its entry and its bytes, if it is there. -/
def Vm.page (m : Vm) (v : ℕ) : Option (Pte × Buf) :=
  if m.dir.present v then some (m.dir.lookup v, m.mem (m.dir.lookup v).frame) else none

/-- The pages that `length` bytes take. -/
def pagesFor (length : ℕ) : ℕ := (length + pageSize - 1) / pageSize

def MemOp.InWords : MemOp → Prop
  | .brk ebx => ebx < 2 ^ 32
  | .mmap length reserved => length < 2 ^ 32 ∧ reserved < 2 ^ 32
  | .munmap addr length => addr < 2 ^ 32 ∧ length < 2 ^ 32
  | _ => True

def MemOp.isSpaceCall : MemOp → Bool
  | .brk _ => true
  | .mmap _ _ => true
  | .munmap _ _ => true
  | _ => false

/-- The call has given what was asked for; a break counts up to the end of its page. -/
def Task.granted (e : VmEnv) (m : Vm) (t : Task) : MemOp → Bool
  | .brk ebx => decide ((sysBrk e m t.brkStart t.brkCurrent ebx).1 = pagesFor ebx * pageSize)
  | .mmap length reserved => decide ((sysMmap e m length reserved).1 ≠ 0xFFFFFFFF)
  | .munmap addr length => decide ((sysMunmap m addr length).1 = .ok)
  | _ => false

def Task.mapsAfter (e : VmEnv) (m : Vm) (t : Task) (op : MemOp) (maps : Finset ℕ) : Finset ℕ :=
  if t.granted e m op then
    match op with
    | .mmap length reserved =>
      let base := (sysMmap e m length reserved).1 / pageSize
      maps ∪ Finset.Ico base (base + pagesFor length)
    | .munmap addr length =>
      maps \ Finset.Ico (addr / pageSize) (addr / pageSize + pagesFor length)
    | _ => maps
  else maps

def mapsStep (i : ℕ) (s : Machine) (a : MemStep) (maps : Finset ℕ) : Finset ℕ :=
  match s.task? i with
  | some t => if a.task = i then t.mapsAfter a.env (s.vm t) a.op maps else maps
  | none => maps

/-- The pages of the mappings of task `i`, over a run of the machine. -/
def mapsRun (i : ℕ) : Machine → List MemStep → Finset ℕ → Finset ℕ
  | _, [], maps => maps
  | s, a :: as, maps => mapsRun i (memStep s a) as (mapsStep i s a maps)

/-- A program just loaded: nothing is mapped from the end of the image to the top of the region for
mappings. -/
structure Task.Unused (t : Task) : Prop where
  aligned : t.brkStart % pageSize = 0
  below : t.brkStart ≤ userMmapFloor * pageSize
  current : t.brkCurrent = t.brkStart
  free : ∀ v, t.brkStart / pageSize ≤ v → v < userMmapTop → t.dir.present v = false

/-- The pages of a program, `t₀` as loaded, are exactly what it has been granted. -/
structure SpaceExact (t₀ t : Task) (maps : Finset ℕ) : Prop where
  start : t.brkStart = t₀.brkStart
  aligned : t.brkCurrent % pageSize = 0
  lower : t.brkStart ≤ t.brkCurrent
  upper : t.brkCurrent ≤ userMmapFloor * pageSize
  heap : ∀ v, t.brkStart / pageSize ≤ v → v < userMmapFloor →
    (t.dir.present v = true ↔ v < t.brkCurrent / pageSize)
  region : maps ⊆ Finset.Ico userMmapFloor userMmapTop
  maps : ∀ v, userMmapFloor ≤ v → v < userMmapTop → (t.dir.present v = true ↔ v ∈ maps)
  outside : ∀ v < userPages, v < t.brkStart / pageSize ∨ userMmapTop ≤ v →
    t.dir.present v = t₀.dir.present v

/-- One call, from memory `m` to memory `m'`, by a program whose image ends at `start`. -/
structure CallExact (start : ℕ) (granted : Bool) (m m' : Vm) : Prop where
  outside : ∀ v < userPages, v < start / pageSize ∨ userMmapTop ≤ v → m'.page v = m.page v
  refused : granted = false → ∀ v < userPages, m'.page v = m.page v
  zeroed : ∀ v < userPages, ∀ entry bytes, m.page v = none → m'.page v = some (entry, bytes) →
    ∀ j, bytes j = 0

end EsdumanOS
