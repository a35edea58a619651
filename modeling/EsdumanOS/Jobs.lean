import EsdumanOS.Base
import EsdumanOS.Lib.Runs

/-!
# The jobs of the shell

The job table of `sh.c`. Beside the shell stands what the kernel knows of its children: a child is
there until `wait` has returned its exit, and a stop is reported once, in any order. A `wait` that
blocks is a phase of the shell.
-/

namespace EsdumanOS

open Lib

def maxJobs : ℕ := 8
def maxStages : ℕ := 4

/-- `job_t`; `npid` is the length of `pids`. -/
structure Job where
  id : ℕ
  pgid : ℕ
  pids : List ℕ
  stopped : Bool
  deriving DecidableEq, Repr

/-- `jobs[]` and `next_job_id`. -/
structure JobTable where
  jobs : List Job
  nextId : ℕ
  deriving DecidableEq, Repr

namespace JobTable

variable (t : JobTable)

def pids : List ℕ := t.jobs.flatMap Job.pids

/-- `job_add`: the job number, 0 when the table is full. -/
def jobAdd (pgid : ℕ) (pids : List ℕ) (stopped : Bool) : ℕ × JobTable :=
  if maxJobs ≤ t.jobs.length then (0, t)
  else
    (t.nextId, ⟨t.jobs ++ [⟨t.nextId, pgid, pids.take maxStages, stopped⟩], t.nextId + 1⟩)

def jobSlotByPid (pid : ℕ) : Option ℕ := t.jobs.findIdx? fun j => decide (pid ∈ j.pids)

def jobSlotById (id : ℤ) : Option ℕ := t.jobs.findIdx? fun j => decide ((j.id : ℤ) = id)

def jobRemoveAt (slot : Option ℕ) : JobTable :=
  match slot with
  | none => t
  | some i => { t with jobs := t.jobs.eraseIdx i }

def setJob (i : ℕ) (f : Job → Job) : JobTable := { t with jobs := t.jobs.modify i f }

/-- `job_forget_pid`: whether it was the job's last process, the job's number or 0, and the
table. -/
def jobForgetPid (pid : ℕ) : Bool × ℕ × JobTable :=
  match t.jobSlotByPid pid with
  | none => (false, 0, t)
  | some i =>
    let id := (t.jobs[i]?.map Job.id).getD 0
    let t := t.setJob i fun j => { j with pids := j.pids.filter (· ≠ pid) }
    if t.jobs[i]?.any (fun j => decide (j.pids = [])) then (true, id, t.jobRemoveAt (some i))
    else (false, id, t)

/-- `job_report_done`, apart from what it prints. -/
def jobReportDone (pid : ℕ) : JobTable := (t.jobForgetPid pid).2.2

/-- `job_report_stopped`, apart from what it prints. -/
def jobReportStopped (pid : ℕ) : JobTable :=
  match t.jobSlotByPid pid with
  | none => t
  | some i => t.setJob i fun j => { j with stopped := true }

end JobTable

/-- The digits of `dec_to_int`. -/
def decLoop : List Char → ℤ → ℤ
  | [], val => val
  | c :: str, val =>
    if '0' ≤ c ∧ c ≤ '9' then
      if val > 100000000 then -1 else decLoop str (val * 10 + (c.toNat - '0'.toNat : ℤ))
    else val

def decToInt (str : List Char) : ℤ :=
  match str with
  | [] => -1
  | c :: _ => if '0' ≤ c ∧ c ≤ '9' then decLoop str 0 else -1

def JobTable.jobResolve (t : JobTable) (word : List Char) : Option ℕ :=
  if t.jobs = [] then none
  else if word = [] then
    bestIdx (fun _ => true) (fun i => (t.jobs[i]?.map Job.id).getD 0) t.jobs.length
  else
    let word := if word[0]? = some '%' then word.drop 1 else word
    if word = [] then none
    else if word.all (fun c => decide ('0' ≤ c) && decide (c ≤ '9')) then
      t.jobSlotById (decToInt word)
    else none

/-- A stop is `told` once `wait` has returned it. -/
inductive KidState
  | running
  | stopped (sig : Fin 32) (told : Bool)
  | exited (status : UInt8)
  deriving DecidableEq, Repr

/-- A child of the shell whose exit status the shell has not collected. -/
structure Kid where
  pid : ℕ
  pgid : ℕ
  state : KidState
  deriving DecidableEq, Repr

/-- The children of the shell, and the next free pid. -/
structure Family where
  kids : List Kid
  nextPid : ℕ
  deriving DecidableEq, Repr

/-- `WSTATUS_STOPPED`. -/
def stoppedBit : ℕ := 0x100

namespace Family

variable (k : Family)

def pids : List ℕ := k.kids.map Kid.pid

def kid? (pid : ℕ) : Option Kid := k.kids.find? fun x => decide (x.pid = pid)

def become (pid : ℕ) (f : KidState → KidState) : Family :=
  { k with kids := k.kids.map fun x => if x.pid = pid then { x with state := f x.state } else x }

/-- A fork in the parent, with its `setpgid`. Other processes may have taken `gap` pids. -/
def spawn (leader : Option ℕ) (gap : ℕ) : ℕ × Family :=
  let pid := k.nextPid + gap
  (pid, ⟨k.kids ++ [⟨pid, leader.getD pid, .running⟩], pid + 1⟩)

/-- The stages of a pipeline that could be forked; the first founds the group. -/
def spawnStages (k : Family) (leader : Option ℕ) : List ℕ → List ℕ × Family
  | [] => ([], k)
  | gap :: gaps =>
    let pid := (k.spawn leader gap).1
    let r := spawnStages (k.spawn leader gap).2 (some (leader.getD pid)) gaps
    (pid :: r.1, r.2)

def resumed : KidState → KidState
  | .stopped _ _ => .running
  | st => st

/-- `SIG_CONT` to a group. -/
def continueGroup (pgid : ℕ) : Family :=
  { k with kids := k.kids.map fun x =>
      if x.pgid = pgid then { x with state := resumed x.state } else x }

/-- What `wait` with `WUNTRACED` returns for a child with something to report. -/
def takeNews (pid : ℕ) : Option (ℕ × Family) :=
  match (k.kid? pid).map Kid.state with
  | some (.exited status) =>
    some (status.toNat, { k with kids := k.kids.filter fun x => decide (x.pid ≠ pid) })
  | some (.stopped sig false) =>
    some (stoppedBit ||| sig.val, k.become pid fun _ => .stopped sig true)
  | _ => none

def Quiet : Prop := ∀ x ∈ k.kids, k.takeNews x.pid = none

instance : Decidable k.Quiet := inferInstanceAs (Decidable (∀ x ∈ k.kids, _))

end Family

/-- The arguments and the variables of `wait_foreground`. -/
structure Foreground where
  pids : List ℕ
  pgid : ℕ
  lead : ℕ
  jobId : ℕ
  live : ℤ
  status : ℕ
  deriving DecidableEq, Repr

/-- Where the shell is: between two commands, in `jobs_reap`, in `wait_foreground`, or in the loop
of the builtin `wait`. -/
inductive ShellPhase
  | prompt
  | reaping
  | foreground (w : Foreground)
  | waitAll
  deriving DecidableEq, Repr

/-- The job table, the children, and `last_exit_status`. -/
structure JobShell where
  table : JobTable
  family : Family
  phase : ShellPhase
  lastExit : ℤ
  deriving DecidableEq, Repr

namespace JobShell

variable (s : JobShell)

/-- After the loop of `wait_foreground`. -/
def finishForeground (w : Foreground) : JobShell :=
  { s with
    table := if w.jobId ≠ 0 then s.table.jobRemoveAt (s.table.jobSlotById w.jobId) else s.table
    phase := .prompt
    lastExit := w.status }

/-- The test of the loop of `wait_foreground`. -/
def loopForeground (w : Foreground) : JobShell :=
  if 0 < w.live then { s with phase := .foreground w } else s.finishForeground w

/-- `wait_foreground` up to its first `wait`. -/
def waitForeground (pids : List ℕ) (pgid lead jobId : ℕ) : JobShell :=
  s.loopForeground ⟨pids, pgid, lead, jobId, pids.length, 0⟩

/-- One round of `wait_foreground`. A job that stops is `JOB_STOPPED`, which its callers turn into
148. -/
def foregroundNews (w : Foreground) (who st : ℕ) : JobShell :=
  if st &&& stoppedBit ≠ 0 then
    let table := if who ∈ w.pids ∧ w.jobId = 0 then (s.table.jobAdd w.pgid w.pids false).2
      else s.table
    let table := table.jobReportStopped who
    if who ∈ w.pids then { s with table := table, phase := .prompt, lastExit := 148 }
    else { s with table := table }
  else if who ∈ w.pids then
    let table := if w.jobId ≠ 0 then (s.table.jobForgetPid who).2.2 else s.table
    { s with table := table }.loopForeground
      { w with status := if who = w.lead then st else w.status, live := w.live - 1 }
  else { s with table := s.table.jobReportDone who }

/-- One round of `jobs_reap`. -/
def reapNews (who st : ℕ) : JobShell :=
  if st &&& stoppedBit ≠ 0 then { s with table := s.table.jobReportStopped who }
  else { s with table := s.table.jobReportDone who }

/-- One round of the builtin `wait`. -/
def waitNews (who st : ℕ) : JobShell :=
  if st &&& stoppedBit ≠ 0 then
    { s with table := s.table.jobReportStopped who, phase := .prompt, lastExit := 1 }
  else { s with table := s.table.jobReportDone who }

/-- What the caller of `wait` does with news of a child. -/
def handleNews (who st : ℕ) : JobShell :=
  match s.phase with
  | .prompt => s
  | .reaping => s.reapNews who st
  | .foreground w => s.foregroundNews w who st
  | .waitAll => s.waitNews who st

/-- The pending `wait` returns news of a child. -/
def answerNews (pid : ℕ) : JobShell :=
  if s.phase = .prompt then s
  else
    match s.family.takeNews pid with
    | none => s
    | some (st, family) => { s with family := family }.handleNews pid st

/-- The pending `wait` returns without a child: none is ready, or there are none. -/
def answerNone : JobShell :=
  match s.phase with
  | .prompt => s
  | .reaping => if s.family.Quiet then { s with phase := .prompt } else s
  | .foreground w => if s.family.kids = [] then s.finishForeground w else s
  | .waitAll => if s.family.kids = [] then { s with phase := .prompt, lastExit := 0 } else s

/-- The builtin `fg`. -/
def fg (word : List Char) : JobShell :=
  match (s.table.jobResolve word).bind fun i => s.table.jobs[i]?.map fun j => (i, j) with
  | none => { s with lastExit := 1 }
  | some (i, j) =>
    if j.pids = [] then { s with lastExit := 1 }
    else
      { s with
        table := s.table.setJob i fun j => { j with stopped := false }
        family := s.family.continueGroup j.pgid }.waitForeground
          j.pids j.pgid (j.pids.getLastD 0) j.id

/-- The builtin `bg`; `sent` says whether the signal could be sent. -/
def bg (word : List Char) (sent : Bool) : JobShell :=
  match (s.table.jobResolve word).bind fun i => s.table.jobs[i]?.map fun j => (i, j) with
  | none => { s with lastExit := 1 }
  | some (i, j) =>
    if j.stopped then
      { s with
        table := s.table.setJob i fun j => { j with stopped := false }
        family := if sent then s.family.continueGroup j.pgid else s.family
        lastExit := if sent then 0 else 1 }
    else { s with lastExit := 1 }

/-- The builtin `wait`. -/
def waitBuiltin : JobShell :=
  if s.table.jobs.any Job.stopped then { s with lastExit := 1 } else { s with phase := .waitAll }

/-- A foreground command that `exec` could start. -/
def runForeground (gap : ℕ) : JobShell :=
  let r := s.family.spawn none gap
  { s with family := r.2 }.waitForeground [r.1] r.1 r.1 0

def runPipeline (gaps : List ℕ) : JobShell :=
  let r := s.family.spawnStages none (gaps.take maxStages)
  match r.1 with
  | [] => { s with lastExit := 1 }
  | leader :: rest =>
    { s with family := r.2 }.waitForeground (leader :: rest) leader
      ((leader :: rest).getLastD 0) 0

/-- A pipeline in `main`: `forks` has a gap for every stage that `sys_fork` makes, and the loop ends
at the first it does not make. -/
def startPipeline (pipesOk : Bool) (forks : List (Option ℕ)) : JobShell :=
  if pipesOk then s.runPipeline ((forks.takeWhile Option.isSome).filterMap id)
  else { s with lastExit := 1 }

/-- The stages that are forked. -/
def stagePids (pipesOk : Bool) (forks : List (Option ℕ)) : List ℕ :=
  if pipesOk then
    (s.family.spawnStages none (((forks.takeWhile Option.isSome).filterMap id).take maxStages)).1
  else []

/-- What the pending `wait`s report, one after the other. -/
def reports (news : List (ℕ × ℕ)) : JobShell := news.foldl (fun s r => s.handleNews r.1 r.2) s

def runBackground (gap : ℕ) : JobShell :=
  let r := s.family.spawn none gap
  { s with table := (s.table.jobAdd r.1 [r.1] false).2, family := r.2, lastExit := 0 }

end JobShell

inductive JobStep
  | exits (pid : ℕ) (status : UInt8)
  | stops (pid : ℕ) (sig : Fin 32)
  | continues (pid : ℕ)
  | reap
  | run (gap : ℕ)
  | pipeline (gaps : List ℕ)
  | background (gap : ℕ)
  | fg (word : List Char)
  | bg (word : List Char) (sent : Bool)
  | wait
  | answer (pid : ℕ)
  | answerNone
  deriving DecidableEq, Repr

def promptStep (s : JobShell) : JobStep → JobShell
  | .reap => { s with phase := .reaping }
  | .run gap => s.runForeground gap
  | .pipeline gaps => s.runPipeline gaps
  | .background gap => s.runBackground gap
  | .fg word => s.fg word
  | .bg word sent => s.bg word sent
  | .wait => s.waitBuiltin
  | _ => s

/-- An exit ends a child in any state but once; only a running child stops. -/
def jobStep (s : JobShell) (step : JobStep) : JobShell :=
  match step with
  | .exits pid status =>
    { s with family := s.family.become pid fun
      | .exited old => .exited old
      | _ => .exited status }
  | .stops pid sig =>
    { s with family := s.family.become pid fun
      | .running => .stopped sig false
      | st => st }
  | .continues pid => { s with family := s.family.become pid Family.resumed }
  | .answer pid => s.answerNews pid
  | .answerNone => s.answerNone
  | step => if s.phase = .prompt then promptStep s step else s

def jobRun (s : JobShell) (steps : List JobStep) : JobShell :=
  steps.foldl jobStep s

def startShell (nextPid : ℕ) : JobShell := ⟨⟨[], 1⟩, ⟨[], nextPid + 1⟩, .prompt, 0⟩

/-- The table names children whose exit was not collected, none twice. A `wait_foreground` for a
resumed job ends with the exits of its processes, or a stop. -/
structure JobsTruthful (s : JobShell) : Prop where
  known : ∀ j ∈ s.table.jobs, ∀ pid ∈ j.pids, pid ∈ s.family.pids
  once : s.table.pids.Nodup
  exits : ∀ w, s.phase = .foreground w → w.jobId ≠ 0 →
    (∀ x ∈ s.family.kids, x.pid ∈ w.pids → ∃ status, x.state = .exited status) →
    ∀ order : List ℕ, order.Perm (s.family.pids.filter (· ∈ w.pids)) →
      (jobRun s (order.map .answer)).phase = .prompt
  stops : ∀ w, s.phase = .foreground w → w.jobId ≠ 0 →
    ∀ x ∈ s.family.kids, x.pid ∈ w.pids → ∀ sig, x.state = .stopped sig false →
      (jobStep s (.answer x.pid)).phase = .prompt

/-- A process of a foreground job outside the table stops after another has been collected. -/
def StopsHalfDone (s : JobShell) (step : JobStep) : Prop :=
  match s.phase, step with
  | .foreground w, .answer pid =>
    w.jobId = 0 ∧ pid ∈ w.pids ∧
      (∃ sig, (s.family.kid? pid).map Kid.state = some (.stopped sig false)) ∧
      (∃ p ∈ w.pids, p ∉ s.family.pids) ∧ s.table.jobs.length < maxJobs
  | _, _ => False

instance (s : JobShell) (step : JobStep) : Decidable (StopsHalfDone s step) := by
  unfold StopsHalfDone
  split <;> infer_instance

end EsdumanOS
