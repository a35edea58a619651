import EsdumanOS.Process

/-!
# Lineage

A pid is given out again once nobody holds it. Beside the task list runs a record that numbers the
processes: which one has a pid or had it last, which one created it, and which one each notice is
about.
-/

namespace EsdumanOS

open ProcTable Function

/-- The pid and the status that `wait` returns for a notice. -/
def ExitSlot.report (n : ExitSlot) : ℤ × ℤ :=
  (n.childPid, if n.stopped then wstatusStopped + n.exitCode else n.exitCode)

namespace ProcTable

variable (t : ProcTable)

/-- The slot that `take_parked_status` takes, or `take_parked_stop`. -/
def parkedSlot (stopped : Bool) (parent : ℤ) : Option ℕ :=
  oldestSlot t.slots fun s => s.used && (s.stopped == stopped) && decide (s.parentPid = parent)

/-- The caller of a `wait` that returns a notice, and the slot of the notice. -/
def reported (a : ProcStep) : Option (Proc × ℕ) :=
  match a.op, t.caller a.current with
  | .inl (.wait _ untraced true true), some me =>
    ((t.parkedSlot false me.pid).or
      (if untraced then t.parkedSlot true me.pid else none)).map (me, ·)
  | _, _ => none

/-- A living task's `parent_pid` or a parked notice has the pid. -/
def Names (pid : ℤ) : Prop :=
  (∃ p ∈ t.tasks, p.parentPid = pid) ∨ ∃ i < maxTasks, (t.slots i).used = true ∧
    ((t.slots i).childPid = pid ∨ (t.slots i).parentPid = pid)

/-- A task, a zombie, a living task's `parent_pid` or a parked notice has the pid. -/
def Remembers (pid : ℤ) : Prop :=
  pid ∈ t.held ∨ t.Names pid

def NamedAre (ok : ℤ → Prop) : Prop :=
  (∀ p ∈ t.tasks, ok p.parentPid) ∧ ∀ i < maxTasks, (t.slots i).used = true →
    ok (t.slots i).childPid ∧ ok (t.slots i).parentPid

instance {ok : ℤ → Prop} [DecidablePred ok] : Decidable (t.NamedAre ok) :=
  inferInstanceAs (Decidable ((∀ p ∈ _, _) ∧ ∀ i < maxTasks, _ → _ ∧ _))

/-- Every pid that a task or a notice names is still held, or the counter is above all of them and
not at its end. -/
def CounterClear : Prop :=
  t.NamedAre (fun pid => 0 ≤ pid → pid ∈ t.held) ∨
    0 ≤ t.nextPid ∧ t.nextPid ≠ maxPid ∧ (∀ pid ∈ t.held, pid < t.nextPid) ∧
      t.NamedAre (· < t.nextPid)

instance : Decidable t.CounterClear := inferInstanceAs (Decidable (_ ∨ _ ∧ _ ∧ _ ∧ _))

end ProcTable

structure Lineage where
  table : ProcTable
  births : ℕ
  who : ℤ → ℕ
  pidOf : ℕ → ℤ
  maker : ℕ → ℕ
  about : ℕ → ℕ

namespace Lineage

variable (s : Lineage)

def born (pid : ℤ) (creator : Proc) : Lineage :=
  { s with
    births := s.births + 1
    who := update s.who pid s.births
    pidOf := update s.pidOf s.births pid
    maker := update s.maker s.births (s.who creator.pid) }

/-- A task has been reaped or stopped. A notice parked for that is about it. -/
def noted (p : Proc) (t' : ProcTable) : Lineage :=
  if t'.slotSeq = s.table.slotSeq then s
  else
    match (s.table.dropParkedStop p.pid).newsSlot with
    | some i => { s with about := update s.about i (s.who p.pid) }
    | none => s

def act (a : ProcStep) : Lineage :=
  let t' := s.table.act a
  let s₁ := match s.table.callFate a with
    | some (me, _) => s.noted me t'
    | none => s
  let s₂ := match s.table.created a with
    | some (pid, me) => s₁.born pid me
    | none => s₁
  { s₂ with table := t' }

def signal (e : ReapEnv) (current : Option ℤ) (x : ℤ × ℤ) : Lineage :=
  let t' := s.table.sendUserSignal e current x.2 x.1
  let s₁ := match s.table.target? x.1 with
    | some p => s.noted p t'
    | none => s
  { s₁ with table := t' }

end Lineage

def lineageStep (s : Lineage) (a : ProcStep) : Lineage :=
  (s.table.signals a).foldl (fun s x => s.signal a.env a.current x) (s.act a)

def lineageRun (s : Lineage) (as : List ProcStep) : Lineage :=
  as.foldl lineageStep s

def bootLineage : Lineage where
  table := bootTable
  births := 2
  who := fun pid => if pid = 1 then 1 else 0
  pidOf := fun k => k
  maker := fun _ => 0
  about := fun _ => 0

/-- A new task gets a pid that nothing remembers. A `wait` returns a notice about a process the
caller created. -/
structure NewsOwn (s : Lineage) (a : ProcStep) : Prop where
  fresh : ∀ x ∈ s.table.created a, ¬ s.table.Remembers x.1
  own : ∀ (noHang untraced ptrOk copyOk : Bool), a.op = .inl (.wait noHang untraced ptrOk copyOk) →
    ∀ me ∈ s.table.caller a.current, ∀ q ∈ (lineageStep s a).table.task? me.pid,
      q.state = .running → 0 < q.eax →
        ∃ i, s.table.reported a = some (me, i) ∧ (q.eax, q.status) = (s.table.slots i).report ∧
          s.pidOf (s.about i) = q.eax ∧ s.maker (s.about i) = s.who me.pid

/-- `fork` and `exec` are called when the counter does not lead to a pid that is named. -/
def CreatesClear (s : Lineage) (a : ProcStep) : Prop :=
  match a.op with
  | .inl (.fork _) | .inl (.exec _ _) => s.table.CounterClear
  | _ => True

instance (s : Lineage) (a : ProcStep) : Decidable (CreatesClear s a) :=
  a.casesOn fun _ _ _ => by
    unfold CreatesClear
    dsimp only
    split <;> infer_instance

end EsdumanOS
