import EsdumanOS.Process
import EsdumanOS.Lib.Tickets

/-!
# News of children

Beside the task list runs a record of what each task is owed and has got: the exit of a child is
owed to the parent when it happens, and got when a `wait` returns it. A parent inside `exec` for the
child is owed nothing.
-/

namespace EsdumanOS

open ProcTable ExitSlot

def ExitSlot.exitFor (pid : ℤ) (n : ExitSlot) : Bool :=
  n.used && (n.stopped == false) && decide (n.parentPid = pid)

namespace ProcTable

variable (t : ProcTable)

def exitQueue (pid : ℤ) : List ExitSlot :=
  Lib.queue seq (exitFor pid) maxTasks t.slots

def waitingParent (p : Proc) : Option Proc := t.tasks.find? (awaits p)

/-- The parent of a task is inside `exec` for it. -/
def inExec (p : Proc) : Bool := (t.waitingParent p).any fun q => decide (q.waitReason ≠ .pid)

/-- Whether `reap_task` parks the status of a task. -/
def parksExit (p : Proc) : Bool :=
  match t.waitingParent p with
  | some q => decide (q.waitReason = .pid)
  | none => decide (0 < p.parentPid)

/-- Whether `stop_task` parks a notice about a task. -/
def parksStop (p : Proc) : Bool := (t.waitingParent p).isSome || decide (0 < p.parentPid)

def HasRoom : Prop := (∃ i < maxTasks, (t.slots i).used = false) ∧ t.slotSeq < 0xFFFFFFFF

def StopParked (pid : ℤ) : Prop :=
  ∃ i < maxTasks, (t.slots i).used = true ∧ (t.slots i).stopped = true ∧ (t.slots i).childPid = pid

/-- The caller of a `wait` that succeeds with an exit. -/
def collector (a : ProcStep) : Option Proc :=
  match a.op, t.caller a.current with
  | .inl (.wait _ _ true true), some me =>
    if (t.takeParked false me.pid).1.isSome then some me else none
  | _, _ => none

end ProcTable

def ExitSlot.news (n : ExitSlot) : ℤ × ℤ := (n.childPid, n.exitCode)

structure NewsState where
  table : ProcTable
  owed : ℤ → List (ℤ × ℤ)
  got : ℤ → List (ℤ × ℤ)

namespace NewsState

variable (s : NewsState)

/-- A task exits. A pid of 0 is that of the idle task, which is nobody's parent. -/
def exited (p : Proc) (status : ℤ) : NewsState :=
  if p.pid ≠ idlePid ∧ 0 < p.parentPid ∧ p.parentPid ∈ s.table.pids ∧
      s.table.inExec p = false then
    { s with
      owed := Function.update s.owed p.parentPid (s.owed p.parentPid ++ [(p.pid, status)]) }
  else s

/-- A `wait` has returned an exit: its caller has the child in `eax`, and the status. -/
def waited (me : Proc) (t' : ProcTable) : NewsState :=
  match t'.task? me.pid with
  | some p =>
    { s with got := Function.update s.got me.pid (s.got me.pid ++ [(p.eax, p.status)]) }
  | none => s

/-- The task list changes. A new task starts with what is parked under its pid, for whomever. -/
def moveTo (t' : ProcTable) : NewsState where
  table := t'
  owed := fun pid => if pid ∈ t'.pids ∧ pid ∉ s.table.pids then
    (t'.exitQueue pid).map news else s.owed pid
  got := fun pid => if pid ∈ t'.pids ∧ pid ∉ s.table.pids then []
    else s.got pid

def act (a : ProcStep) : NewsState :=
  let t' := s.table.act a
  let s₁ := match s.table.callFate a with
    | some (me, .reaped) => s.exited me (s.table.callStatus a)
    | _ => s
  let s₂ := match s.table.collector a with
    | some me => s₁.waited me t'
    | none => s₁
  s₂.moveTo t'

def signal (e : ReapEnv) (current : Option ℤ) (x : ℤ × ℤ) : NewsState :=
  let s₁ := match s.table.target? x.1 with
    | some p =>
      if signalFate current p x.2.toNat = some TaskFate.reaped then
        s.exited p (128 + x.2.toNat) else s
    | none => s
  s₁.moveTo (s.table.sendUserSignal e current x.2 x.1)

end NewsState

def newsStep (s : NewsState) (a : ProcStep) : NewsState :=
  (s.table.signals a).foldl (fun s x => s.signal a.env a.current x) (s.act a)

def newsRun (s : NewsState) (as : List ProcStep) : NewsState :=
  as.foldl newsStep s

def bootNews : NewsState := ⟨bootTable, fun _ => [], fun _ => []⟩

/-- What a task has got is the first part of what it is owed, the rest is parked, and its next
`wait` returns the next exit. Stopped tasks have a stop notice each. -/
structure NewsDelivered (s : NewsState) : Prop where
  exits : ∀ p ∈ s.table.tasks, 0 < p.pid →
    s.owed p.pid = s.got p.pid ++ (s.table.exitQueue p.pid).map news
  next : ∀ (a : ProcStep) (noHang untraced : Bool), a.op = .inl (.wait noHang untraced true true) →
    ∀ me ∈ s.table.caller a.current, 0 < me.pid → s.got me.pid ≠ s.owed me.pid →
      (newsStep s a).got me.pid = (s.owed me.pid).take ((s.got me.pid).length + 1)
  oneStop : ∀ i < maxTasks, ∀ j < maxTasks,
    (s.table.slots i).used = true → (s.table.slots i).stopped = true →
    (s.table.slots j).used = true → (s.table.slots j).stopped = true →
    (s.table.slots i).childPid = (s.table.slots j).childPid → i = j
  stopped : ∀ i < maxTasks, (s.table.slots i).used = true → (s.table.slots i).stopped = true →
    ∃ p ∈ s.table.tasks, p.pid = (s.table.slots i).childPid ∧ p.state = .stopped

/-- Parked news finds room, and an exit that is not parked leaves no stop notice behind. -/
def NewsFate : TaskFate → ProcTable → Proc → Prop
  | .reaped, t, p => p.pid = idlePid ∨
    (t.parksExit p = true → t.HasRoom) ∧ (t.parksExit p = false → ¬ t.StopParked p.pid)
  | .stopped, t, p => p.state = .stopped ∨ p.pid = idlePid ∨ (t.parksStop p = true → t.HasRoom)
  | .continued, _, _ => True

/-- A `wait` that finds an exit can store the status. -/
def WaitStores (t : ProcTable) (a : ProcStep) : Prop :=
  match a.op with
  | .inl (.wait _ _ true copyOk) => ∀ me ∈ t.caller a.current,
    (t.takeParked false me.pid).1.isSome = true → copyOk = true
  | _ => True

def NewsKept (s : NewsState) (a : ProcStep) : Prop :=
  FatesMeet NewsFate s.table a ∧ WaitStores s.table a

instance (t : ProcTable) : Decidable t.HasRoom :=
  inferInstanceAs (Decidable ((∃ i < maxTasks, _) ∧ _))

instance (t : ProcTable) (pid : ℤ) : Decidable (t.StopParked pid) :=
  inferInstanceAs (Decidable (∃ i < maxTasks, _))

instance (f : TaskFate) (t : ProcTable) (p : Proc) : Decidable (NewsFate f t p) := by
  unfold NewsFate
  split <;> infer_instance

instance (t : ProcTable) (a : ProcStep) : Decidable (WaitStores t a) := by
  cases a
  unfold WaitStores
  split <;> infer_instance

instance (s : NewsState) (a : ProcStep) : Decidable (NewsKept s a) :=
  inferInstanceAs (Decidable (_ ∧ _))

end EsdumanOS
