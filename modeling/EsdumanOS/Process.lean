import EsdumanOS.Base
import EsdumanOS.Lib.Runs
import EsdumanOS.Lib.Rows

/-!
# Processes

The task list of `process.c` with its parked child news, signals, stops and continues, and the calls
of `sys_process.c` and `sys_ipc.c` on it. Each step says which task is running; memory, descriptors
and mutexes appear by their outcomes.
-/

namespace EsdumanOS

open Function

inductive TaskState
  | empty | running | waiting | dead | stopped
  deriving DecidableEq, Repr

inductive TaskFate
  | reaped | stopped | continued
  deriving DecidableEq, Repr

inductive WaitReason
  | none | kbd | ipc | timer | mutex | child | pid
  deriving DecidableEq, Repr

/-- An entry of `signal_handlers`: 0, `SIG_IGN`, or an address. -/
inductive Handler
  | default | ignore | user (addr : ℕ)
  deriving DecidableEq, Repr

def sigInt : ℕ := 2
def sigKill : ℕ := 9
def sigPipe : ℕ := 13
def sigAlrm : ℕ := 14
def sigTerm : ℕ := 15
def sigCont : ℕ := 18
def sigTstp : ℕ := 20
def sigTtin : ℕ := 21
def maxUserSignals : ℕ := 32
def wstatusStopped : ℕ := 0x100

def ePerm : ℤ := -1
def eSrch : ℤ := -3
def eNoexec : ℤ := -8
def eChild : ℤ := -10
def eAgain : ℤ := -11
def eNomem : ℤ := -12
def eFault : ℤ := -14
def eInval : ℤ := -22

/-- `process_t`, as far as its life goes. `eax` is what its call returns, `status` what `wait` has
stored, and `savedEax` that of `signal_saved_regs` while `in_signal_handler` is set. -/
structure Proc where
  pid : ℤ
  parentPid : ℤ
  uid : ℕ
  pgid : ℤ
  state : TaskState
  waitReason : WaitReason
  stoppedWaitReason : WaitReason
  execChildPid : ℤ
  exitCode : ℤ
  eax : ℤ
  status : ℤ
  pending : ℕ → Bool
  handlers : ℕ → Handler
  signalInterrupted : Bool
  savedEax : Option ℤ

structure ExitSlot where
  parentPid : ℤ
  childPid : ℤ
  exitCode : ℤ
  seq : ℕ
  used : Bool
  stopped : Bool
  deriving DecidableEq, Repr

def ExitSlot.zero : ExitSlot := ⟨0, 0, 0, 0, false, false⟩

/-- The task list in its order, the pids of the tasks not yet freed, and the news table. -/
structure ProcTable where
  tasks : List Proc
  zombies : List ℤ
  nextPid : ℤ
  foregroundPgid : ℤ
  slots : ℕ → ExitSlot
  slotSeq : ℕ

namespace ProcTable

/-- The pid of `idle_task`, which is created first. -/
def idlePid : ℤ := 0

def maxPid : ℤ := 0x7FFFFFFF

variable (t : ProcTable)

abbrev pids : List ℤ := t.tasks.map Proc.pid

def task? (pid : ℤ) : Option Proc :=
  t.tasks.find? fun p => decide (p.pid = pid)

def modify (pid : ℤ) (f : Proc → Proc) : ProcTable :=
  { t with tasks := t.tasks.map fun p => if p.pid = pid then f p else p }

/-- A call returns `value`. -/
def ret (pid value : ℤ) : ProcTable :=
  t.modify pid fun p => { p with eax := value }

/-- `allocate_pid`, as far as `fuel` candidates. -/
def allocatePid (held : List ℤ) : ℕ → ℤ → Option (ℤ × ℤ)
  | 0, _ => none
  | fuel + 1, nextPid =>
    let candidate := if nextPid < 0 ∨ nextPid = maxPid then 2 else nextPid
    if candidate ∈ held then allocatePid held fuel (candidate + 1)
    else some (candidate, candidate + 1)

def held : List ℤ := t.pids ++ t.zombies

def checkFreeTaskSlot : Bool :=
  decide (t.tasks.countP (fun p => decide (p.state ≠ .empty ∧ p.state ≠ .dead)) < maxTasks)

/-- A fresh task of `create_process`, with the creator it inherits from. -/
def newProc (pid : ℤ) (creator : Proc) : Proc where
  pid := pid
  parentPid := creator.pid
  uid := creator.uid
  pgid := if creator.pgid ≠ 0 then creator.pgid else pid
  state := .running
  waitReason := .none
  stoppedWaitReason := .none
  execChildPid := 0
  exitCode := 0
  eax := 0
  status := 0
  pending := fun _ => false
  handlers := fun _ => .default
  signalInterrupted := false
  savedEax := none

/-- How far the memory goes for a new task: not to `allocate_pid`, not to the descriptor table that
`create_process` allocates after it, or to the end. -/
inductive Memory
  | none | task | all
  deriving DecidableEq

/-- `create_process` by a running task, from `allocate_pid` on. -/
def createProcess (memory : Memory) (creator : Proc) : Option ℤ × ProcTable :=
  match allocatePid t.held (t.held.length + 1) t.nextPid with
  | none => (none, t)
  | some (pid, next) =>
    -- the pid is used up even if the task is not published
    if memory = .all then
      (some pid, { t with tasks := t.tasks ++ [newProc pid creator], nextPid := next })
    else (none, { t with nextPid := next })

def oldestSlot (slots : ℕ → ExitSlot) (test : ExitSlot → Bool) : Option ℕ :=
  Lib.bestIdx (fun i => test (slots i) && decide ((slots i).seq < 0xFFFFFFFF))
    (fun i => 0xFFFFFFFF - (slots i).seq) maxTasks

/-- The slot `park_child_news` writes: a free one, or the oldest. -/
def newsSlot : Option ℕ :=
  match Lib.firstIdx (fun i => !(t.slots i).used) maxTasks with
  | some i => some i
  | none => oldestSlot t.slots fun _ => true

def parkChildNews (parent child code : ℤ) (stopped : Bool) : ProcTable :=
  { t with
    slots := match t.newsSlot with
      | some i => update t.slots i ⟨parent, child, code, t.slotSeq, true, stopped⟩
      | none => t.slots
    slotSeq := u32 (t.slotSeq + 1) }

def dropSlots (test : ExitSlot → Bool) : ProcTable :=
  { t with slots := fun i =>
      if (t.slots i).used && test (t.slots i) then { t.slots i with used := false } else t.slots i }

def dropParkedStop (child : ℤ) : ProcTable :=
  t.dropSlots fun s => s.stopped && decide (s.childPid = child)

def parkStopNotice (parent child sig : ℤ) : ProcTable :=
  (t.dropParkedStop child).parkChildNews parent child sig true

def parkExitStatus (parent child code : ℤ) : ProcTable :=
  (t.dropParkedStop child).parkChildNews parent child code false

/-- `take_parked_status`, and `take_parked_stop` when `stopped` is set. -/
def takeParked (stopped : Bool) (parent : ℤ) : Option ExitSlot × ProcTable :=
  match oldestSlot t.slots fun s =>
    s.used && (s.stopped == stopped) && decide (s.parentPid = parent)
  with
  | none => (none, t)
  | some i =>
    (some (t.slots i),
      { t with slots := update t.slots i { t.slots i with used := false } })

def dropParkedStatuses (parent : ℤ) : ProcTable :=
  t.dropSlots fun s => decide (s.parentPid = parent)

def hasPendingChildren (pid : ℤ) : Bool :=
  (List.range maxTasks).any (fun i => (t.slots i).used && decide ((t.slots i).parentPid = pid)) ||
    t.tasks.any fun p => decide (p.parentPid = pid ∧ p.state ≠ .empty ∧ p.state ≠ .dead)

def awake (p : Proc) : Bool := decide (p.state = .running ∨ p.state = .waiting)

def groupHasALiveMember (pgid excluding : ℤ) : Bool :=
  decide (pgid ≠ 0) &&
    t.tasks.any fun p => decide (p.pid ≠ excluding ∧ p.pgid = pgid) && awake p

def handTerminalToAnyLiveTask (excluding : ℤ) : ProcTable :=
  let next := t.tasks.find? fun p =>
    decide (p.pid ≠ excluding ∧ p.pid ≠ idlePid ∧ p.pgid ≠ 0) && awake p
  { t with foregroundPgid := (next.map Proc.pgid).getD 0 }

/-- The terminal moves on when the group that has it has nobody left to use it. -/
def passTerminal (victim : Proc) (woken : Option Proc) : ProcTable :=
  if victim.pgid = t.foregroundPgid ∧ t.groupHasALiveMember t.foregroundPgid victim.pid = false then
    match woken with
    | some p => { t with foregroundPgid := p.pgid }
    | none => t.handTerminalToAnyLiveTask victim.pid
  else t

def wake (p : Proc) : Proc := { p with state := .running, waitReason := .none }

def wakeupTasks (reason : WaitReason) : ProcTable :=
  { t with tasks := t.tasks.map fun p =>
      if p.state = .waiting ∧ p.waitReason = reason then wake p else p }

/-- A task that waits for a reason is woken alone, as by `wake_expired_sleepers`. -/
def wakeTask (pid : ℤ) (reason : WaitReason) : ProcTable :=
  t.modify pid fun p => if p.state = .waiting ∧ p.waitReason = reason then wake p else p

/-- A parent that waits for news of `victim`. -/
def awaits (victim : Proc) (p : Proc) : Bool :=
  decide (p.pid = victim.parentPid ∧ p.state = .waiting ∧
    (p.waitReason = .pid ∨ p.waitReason = .child ∧ p.execChildPid = victim.pid))

/-- A parent inside `exec` is handed `value`; one in `wait` runs its call again. -/
def released (value : ℤ) (p : Proc) : Proc :=
  if p.waitReason = .pid then wake p else { wake p with execChildPid := 0, eax := value }

/-- What a dying task lets go of: whether it drops a pipe end, and who gets its mutex. -/
structure ReapEnv where
  dropsPipe : Bool
  mutexWaiter : Option ℤ

/-- The part of `reap_task` before the parent is told. -/
def letGo (e : ReapEnv) : ProcTable :=
  let t := match e.mutexWaiter with
    | some pid => t.wakeTask pid .mutex
    | none => t
  if e.dropsPipe then t.wakeupTasks .ipc else t

/-- The loop of `reap_task` and `stop_task`: the parent that was waiting, and the list with it
woken. -/
def tellParent (victim : Proc) (value : ℤ) : Option Proc × ProcTable :=
  (t.tasks.find? (awaits victim),
    { t with tasks := Lib.updateFirst (awaits victim) (released value) t.tasks })

def markDead (p : Proc) : Proc := { p with state := .dead, pending := fun _ => false }

/-- The part of `reap_task` from the point where the victim is marked dead. -/
def bury (victim : Proc) : ProcTable :=
  let r := (t.modify victim.pid markDead).tellParent victim victim.exitCode
  let parked := r.2.parkExitStatus victim.parentPid victim.pid victim.exitCode
  let t : ProcTable := match r.1 with
    | some p => if p.waitReason = .pid then parked else r.2
    | none => if 0 < victim.parentPid then parked else r.2
  let t := (t.dropParkedStatuses victim.pid).passTerminal victim r.1
  { t with
    tasks := t.tasks.filter fun p => decide (p.pid ≠ victim.pid)
    zombies := victim.pid :: t.zombies }

/-- `reap_task`, of the task with this pid. -/
def reapTask (e : ReapEnv) (pid : ℤ) : ProcTable :=
  match t.task? pid with
  | none => t
  | some victim =>
    if victim.state = .dead ∨ victim.pid = idlePid then t else (t.letGo e).bury victim

def markStopped (sig : ℕ) (p : Proc) : Proc :=
  { p with
    stoppedWaitReason := if p.state = .waiting then p.waitReason else .none
    state := .stopped
    waitReason := .none
    pending := update p.pending sig false }

def stopTask (pid : ℤ) (sig : ℕ) : ProcTable :=
  match t.task? pid with
  | none => t
  | some victim =>
    if victim.state = .empty ∨ victim.state = .dead ∨ victim.state = .stopped then t
    else if victim.pid = idlePid then t
    else
      let r := (t.modify victim.pid (markStopped sig)).tellParent victim (wstatusStopped + sig)
      let t : ProcTable := match r.1 with
        | some p => r.2.parkStopNotice p.pid victim.pid sig
        | none => if 0 < victim.parentPid then
            r.2.parkStopNotice victim.parentPid victim.pid sig else r.2
      t.passTerminal victim r.1

/-- The task `continue_task` puts back where it was. -/
def continued (p : Proc) : Proc :=
  let pending := update (update p.pending sigTstp false) sigTtin false
  let pending := match p.handlers sigCont with
    | .user _ => update pending sigCont true
    | _ => pending
  { p with
    pending := pending
    state := if p.stoppedWaitReason = .child then .waiting else .running
    waitReason := if p.stoppedWaitReason = .child then .child else .none
    stoppedWaitReason := .none }

def continueTask (pid : ℤ) : ProcTable :=
  match t.task? pid with
  | none => t
  | some p =>
    if p.state ≠ .stopped then t else (t.dropParkedStop pid).modify pid continued

def signalTerminatesByDefault (sig : ℕ) : Bool :=
  decide (sig = sigKill ∨ sig = sigTerm ∨ sig = sigPipe ∨ sig = sigInt ∨ sig = sigAlrm)

def signalStopsByDefault (sig : ℕ) : Bool :=
  decide (sig = sigTstp ∨ sig = sigTtin)

def interrupted (sig : ℕ) (p : Proc) : Proc :=
  let p := { p with pending := update p.pending sig true }
  if p.state = .waiting ∧ p.waitReason = .kbd then { wake p with signalInterrupted := true } else p

def target? (pid : ℤ) : Option Proc :=
  t.tasks.find? fun p => decide (p.pid = pid ∧ p.state ≠ .empty ∧ p.state ≠ .dead)

/-- What `send_user_signal` does with the target it has found, while `current` is running. -/
def signalFate (current : Option ℤ) (p : Proc) (sig : ℕ) : Option TaskFate :=
  if sig = sigCont then some .continued
  else if p.handlers sig = .default ∧ p.pid ≠ idlePid ∧ some p.pid ≠ current then
    if signalStopsByDefault sig then some .stopped
    else if signalTerminatesByDefault sig then some .reaped
    else none
  else none

def markPending (pid : ℤ) (sig : ℕ) : ProcTable :=
  t.modify pid fun p => { p with pending := update p.pending sig true }

/-- The body of `send_user_signal`. -/
def signalTask (e : ReapEnv) (current : Option ℤ) (p : Proc) (sig : ℕ) : ProcTable :=
  match signalFate current p sig with
  | some .continued => t.continueTask p.pid
  | some .stopped => (t.markPending p.pid sig).stopTask p.pid sig
  | some .reaped =>
    ((t.markPending p.pid sig).modify p.pid fun p => { p with exitCode := 128 + sig }).reapTask e
      p.pid
  | none => t.modify p.pid (interrupted sig)

def sendUserSignal (e : ReapEnv) (current : Option ℤ) (sig : ℤ) (pid : ℤ) : ProcTable :=
  if sig < 0 ∨ maxUserSignals ≤ sig then t
  else
    match t.target? pid with
    | none => t
    | some p => t.signalTask e current p sig.toNat

/-- `send_signal_to_group`: the members it collects before it sends the signal to each. -/
def groupTargets (pgid sig : ℤ) : List ℤ :=
  if pgid = 0 ∨ sig < 0 ∨ maxUserSignals ≤ sig then []
  else
    ((t.tasks.filter fun p => decide (p.pid ≠ idlePid ∧ p.pgid = pgid ∧ p.state ≠ .empty ∧
      p.state ≠ .dead)).take maxTasks).map Proc.pid

/-- The tasks of a group, as `sys_kill`, `sys_setpgid` and `sys_tcsetpgrp` look for them. -/
def members (pgid : ℤ) : List Proc :=
  t.tasks.filter fun p => decide (p.state ≠ .empty ∧ p.state ≠ .dead ∧ p.pgid = pgid)

/-- The checks of `sys_kill` by task `me`: what it returns, and whom it signals. -/
def sysKill (me : Proc) (target sig : ℤ) : ℤ × List ℤ :=
  if target < 0 then
    if t.members (-target) = [] then (eSrch, [])
    else if me.uid = 0 ∨ ∀ p ∈ t.members (-target), p.uid = me.uid then
      (0, t.groupTargets (-target) sig)
    else (ePerm, [])
  else if me.uid = 0 ∨ (t.tasks.find? fun p => decide (p.pid = target ∧ p.state ≠ .empty)).any
      (fun p => decide (p.uid = me.uid)) = true then (0, [target])
  else (ePerm, [])

def defaultAction (p : Proc) : Option ℕ :=
  Lib.firstIdx (fun i => p.pending i && decide (p.handlers i = .default) &&
    (signalTerminatesByDefault i || signalStopsByDefault i)) maxUserSignals

/-- What `apply_default_signal_action` makes of the running task. -/
def settleFate (me : Proc) : Option TaskFate :=
  if me.pid = idlePid then none
  else (defaultAction me).map fun i =>
    if signalTerminatesByDefault i then .reaped else .stopped

/-- `apply_default_signal_action` for the running task. -/
def applyDefaultSignalAction (e : ReapEnv) (me : Proc) : ProcTable :=
  if me.pid = idlePid then t.modify me.pid fun p => { p with pending := fun _ => false }
  else
    match defaultAction me with
    | none => t
    | some i =>
      if signalTerminatesByDefault i then
        (t.modify me.pid fun p => { p with
          pending := update p.pending i false
          exitCode := 128 + i }).reapTask e me.pid
      else t.stopTask me.pid i

/-- The loop of `check_and_deliver_signals`, with whether the address of a handler is valid. -/
def deliver (addrOk : Bool) (p : Proc) : List ℕ → Proc
  | [] => p
  | i :: is =>
    if p.pending i = false ∨ p.handlers i = .default ∧
        (signalTerminatesByDefault i || signalStopsByDefault i) = true then deliver addrOk p is
    else
      let p := { p with pending := update p.pending i false }
      match p.handlers i with
      | .user _ =>
        if addrOk then { p with savedEax := some p.eax }
        else { p with handlers := update p.handlers i .default }
      | _ => deliver addrOk p is

def checkAndDeliverSignals (addrOk : Bool) (me : Proc) : ProcTable :=
  if me.savedEax.isSome then t
  else t.modify me.pid fun p => deliver addrOk p (List.range maxUserSignals)

def restoreSignalContext (me : Proc) : ProcTable :=
  t.modify me.pid fun p => { p with eax := p.savedEax.getD p.eax, savedEax := none }

def sleepCurrentTask (pid : ℤ) (reason : WaitReason) : ProcTable :=
  t.modify pid fun p => { p with state := .waiting, waitReason := reason }

/-- `sys_fork`. -/
def sysFork (memory : Memory) (me : Proc) : ProcTable :=
  if !t.checkFreeTaskSlot then t.ret me.pid eAgain
  else if memory = .none then t.ret me.pid eNomem
  else
    match t.createProcess memory me with
    | (none, t') => t'.ret me.pid eNomem
    | (some pid, t') =>
      (t'.modify pid fun p => { p with handlers := me.handlers }).ret me.pid pid

/-- `sys_exec`. The memory of `load_and_exec_elf` goes to nothing when it refuses the file. -/
def sysExec (memory : Memory) (noWait : Bool) (me : Proc) : ProcTable :=
  if !t.checkFreeTaskSlot || memory = .none then t.ret me.pid eNoexec
  else
    match t.createProcess memory me with
    | (none, t') => t'.ret me.pid eNoexec
    | (some pid, t') =>
      if noWait then t'.ret me.pid pid
      else
        (t'.modify me.pid fun p => { p with execChildPid := pid, eax := 0 }).sleepCurrentTask
          me.pid .child

def sysExit (e : ReapEnv) (me : Proc) (ebx : ℕ) : ProcTable :=
  (t.modify me.pid fun p => { p with exitCode := ebx % 256 }).reapTask e me.pid

/-- The page fault handler ends a program like `exit`. -/
def segfault (e : ReapEnv) (me : Proc) : ProcTable :=
  (t.modify me.pid fun p => { p with exitCode := 139 }).reapTask e me.pid

/-- A status leaves the table for the caller of `wait`, whose memory may not take it. -/
def report (me : Proc) (copyOk : Bool) (child status : ℤ) : ProcTable :=
  if copyOk then t.modify me.pid fun p => { p with eax := child, status := status }
  else t.ret me.pid eFault

/-- `sys_wait`, with whether the status pointer is valid and can be written. -/
def sysWait (me : Proc) (noHang untraced ptrOk copyOk : Bool) : ProcTable :=
  if !ptrOk then t.ret me.pid eFault
  else
    let exited := t.takeParked false me.pid
    let stopped := if untraced then t.takeParked true me.pid else (none, t)
    match exited.1, stopped.1 with
    | some s, _ => exited.2.report me copyOk s.childPid s.exitCode
    | none, some s => stopped.2.report me copyOk s.childPid (wstatusStopped + s.exitCode)
    | none, none =>
      if !t.hasPendingChildren me.pid then t.ret me.pid eChild
      else if noHang then t.ret me.pid 0
      else t.sleepCurrentTask me.pid .pid

/-- `register_user_signal`, with whether the address of a handler is valid. -/
def registerUserSignal (me : Proc) (sig : ℤ) (handler : Handler) (addrOk : Bool) : ProcTable :=
  if sig < 0 ∨ maxUserSignals ≤ sig then t.ret me.pid eInval
  else if handler ≠ .default ∧ handler ≠ .ignore ∧ addrOk = false then t.ret me.pid eFault
  else t.modify me.pid fun p =>
    { p with handlers := update p.handlers sig.toNat handler, eax := 0 }

def sysSetpgid (me : Proc) (pid pgid : ℤ) : ProcTable :=
  let pid := if pid = 0 then me.pid else pid
  match t.target? pid with
  | none => t.ret me.pid eSrch
  | some target =>
    if target.pid ≠ me.pid ∧ target.parentPid ≠ me.pid then t.ret me.pid ePerm
    else
      let pgid := if pgid = 0 then pid else pgid
      if pgid ≠ pid ∧ t.members pgid = [] then t.ret me.pid eSrch
      else (t.modify pid fun p => { p with pgid := pgid }).ret me.pid 0

def sysTcsetpgrp (me : Proc) (pgid : ℤ) : ProcTable :=
  if pgid = 0 then t.ret me.pid eInval
  else if t.members pgid = [] then t.ret me.pid eSrch
  else if me.pgid = pgid ∨ ∃ p ∈ t.members pgid, p.parentPid = me.pid then
    { t.ret me.pid 0 with foregroundPgid := pgid }
  else t.ret me.pid ePerm

end ProcTable

section Runs

open ProcTable

/-- A call of the running task. `block` waits for no child. On the way back to user mode signals are
delivered, and then `settle` takes the default action of one. -/
inductive ProcCall
  | fork (memory : Memory)
  | exec (memory : Memory) (noWait : Bool)
  | exit (ebx : ℕ)
  | segfault
  | kill (target sig : ℤ)
  | wait (noHang untraced ptrOk copyOk : Bool)
  | signal (sig : ℤ) (handler : Handler) (addrOk : Bool)
  | setpgid (pid pgid : ℤ)
  | tcsetpgrp (pgid : ℤ)
  | readTerminal
  | block (reason : WaitReason)
  | deliver (addrOk : Bool)
  | sigreturn
  | settle

/-- What happens to the tasks from outside, with whoever is running. -/
inductive ProcEvent
  | wakeup (reason : WaitReason)
  | wake (pid : ℤ) (reason : WaitReason)
  | key (sig : ℕ)
  | alarm (pid : ℤ)
  | reapZombies (keep : ℤ)

structure ProcStep where
  env : ReapEnv
  current : Option ℤ
  op : ProcCall ⊕ ProcEvent

/-- The task that makes a call: it is in the list and the scheduler may have picked it. -/
def ProcTable.caller (t : ProcTable) (current : Option ℤ) : Option Proc :=
  match current with
  | none => none
  | some pid => (t.task? pid).filter fun p => decide (p.state = .running)

def WaitReason.blocks (r : WaitReason) : Bool :=
  decide (r = .kbd ∨ r = .ipc ∨ r = .timer ∨ r = .mutex)

/-- A read of the keyboard by a job in the background, which stops its group. -/
def ProcTable.ttinTargets (t : ProcTable) (me : Proc) : List ℤ :=
  if t.foregroundPgid ≠ 0 ∧ me.pgid ≠ t.foregroundPgid ∧ me.handlers sigTtin = .default then
    t.groupTargets me.pgid sigTtin
  else []

def ProcTable.signals (t : ProcTable) (a : ProcStep) : List (ℤ × ℤ) :=
  match a.op with
  | .inl c =>
    match t.caller a.current with
    | none => []
    | some me =>
      match c with
      | .kill target sig => (t.sysKill me target sig).2.map (·, sig)
      | .readTerminal => (t.ttinTargets me).map (·, (sigTtin : ℤ))
      | _ => []
  | .inr (.key sig) =>
    if sig = sigInt ∨ sig = sigTstp then (t.groupTargets t.foregroundPgid sig).map (·, (sig : ℤ))
    else []
  | .inr (.alarm pid) => [(pid, sigAlrm)]
  | .inr _ => []

def ProcTable.act (t : ProcTable) (a : ProcStep) : ProcTable :=
  match a.op with
  | .inl c =>
    match t.caller a.current with
    | none => t
    | some me =>
      match c with
      | .fork memory => t.sysFork memory me
      | .exec memory noWait => t.sysExec memory noWait me
      | .exit ebx => t.sysExit a.env me ebx
      | .segfault => t.segfault a.env me
      | .wait noHang untraced ptrOk copyOk => t.sysWait me noHang untraced ptrOk copyOk
      | .signal sig handler addrOk => t.registerUserSignal me sig handler addrOk
      | .setpgid pid pgid => t.sysSetpgid me pid pgid
      | .tcsetpgrp pgid => t.sysTcsetpgrp me pgid
      | .block reason => if reason.blocks then t.sleepCurrentTask me.pid reason else t
      | .deliver addrOk => t.checkAndDeliverSignals addrOk me
      | .sigreturn => t.restoreSignalContext me
      | .settle => t.applyDefaultSignalAction a.env me
      | .kill target sig => t.ret me.pid (t.sysKill me target sig).1
      | .readTerminal => t
  | .inr (.wakeup reason) => if reason.blocks then t.wakeupTasks reason else t
  | .inr (.wake pid reason) => if reason.blocks then t.wakeTask pid reason else t
  | .inr (.reapZombies keep) => { t with zombies := t.zombies.filter fun z => decide (z = keep) }
  | .inr (.key _) => t
  | .inr (.alarm _) => t

def ProcTable.sendAll (e : ReapEnv) (current : Option ℤ) (t : ProcTable) (ss : List (ℤ × ℤ)) :
    ProcTable :=
  ss.foldl (fun t s => t.sendUserSignal e current s.2 s.1) t

def procStep (t : ProcTable) (a : ProcStep) : ProcTable :=
  (t.act a).sendAll a.env a.current (t.signals a)

def procRun (t : ProcTable) (as : List ProcStep) : ProcTable :=
  as.foldl procStep t

def ProcTable.callFate (t : ProcTable) (a : ProcStep) : Option (Proc × TaskFate) :=
  match a.op, t.caller a.current with
  | .inl (.exit _), some me => some (me, .reaped)
  | .inl .segfault, some me => some (me, .reaped)
  | .inl .settle, some me => (settleFate me).map (me, ·)
  | _, _ => none

def ProcTable.callStatus (t : ProcTable) (a : ProcStep) : ℤ :=
  match a.op, t.caller a.current with
  | .inl (.exit ebx), _ => ebx % 256
  | .inl .segfault, _ => 139
  | .inl .settle, some me => 128 + (defaultAction me).getD 0
  | _, _ => 0

/-- The pid of the task that a call of `me` makes, when it gets as far as `create_process`. -/
def ProcTable.launched (t : ProcTable) (memory : Memory) (me : Proc) : Option (ℤ × Proc) :=
  if t.checkFreeTaskSlot then (t.createProcess memory me).1.map (·, me) else none

def ProcTable.created (t : ProcTable) (a : ProcStep) : Option (ℤ × Proc) :=
  match a.op, t.caller a.current with
  | .inl (.fork memory), some me => t.launched memory me
  | .inl (.exec memory _), some me => t.launched memory me
  | _, _ => none

/-- Every task that a step reaps, stops or continues meets `ok` at that moment. -/
def FatesMeet (ok : TaskFate → ProcTable → Proc → Prop) (t : ProcTable) (a : ProcStep) : Prop :=
  (∀ x ∈ t.callFate a, ok x.2 t x.1) ∧
  Lib.StepsMeet (fun t s => t.sendUserSignal a.env a.current s.2 s.1)
    (fun t s => ∀ p ∈ t.target? s.1, ∀ f ∈ signalFate a.current p s.2.toNat, ok f t p)
    (t.act a) (t.signals a)

instance {ok : TaskFate → ProcTable → Proc → Prop} [∀ f t p, Decidable (ok f t p)] (t : ProcTable)
    (a : ProcStep) : Decidable (FatesMeet ok t a) :=
  inferInstanceAs (Decidable (_ ∧ _))

def ProcStep.plain (pid : ℤ) (c : ProcCall) : ProcStep := ⟨⟨false, none⟩, some pid, .inl c⟩

/-- The idle task, and `init` as the first program. -/
def bootTable : ProcTable :=
  let idle : Proc := ⟨0, -1, 0, 0, .running, .none, .none, 0, 0, 0, 0, fun _ => false,
    fun _ => .default, false, none⟩
  { tasks := [idle, newProc 1 idle]
    zombies := []
    nextPid := 2
    foregroundPgid := 1
    slots := fun _ => .zero
    slotSeq := 1 }

end Runs

section WaitsAndTerminal

open ProcTable

/-- The task that an `exec` waits for is in the list. -/
def ExecChildListed (t : ProcTable) : Prop :=
  ∀ p ∈ t.tasks, p.state = .waiting → p.waitReason = .child →
    ∃ c ∈ t.tasks, c.pid = p.execChildPid

/-- A task that was stopped inside `exec` is continued while its child is there. -/
def ContinuedWithChild : TaskFate → ProcTable → Proc → Prop
  | .continued, t, p => p.state = .stopped → p.stoppedWaitReason = .child →
    ∃ c ∈ t.tasks, c.pid = p.execChildPid ∧ c.parentPid = p.pid
  | _, _, _ => True

instance (f : TaskFate) (t : ProcTable) (p : Proc) : Decidable (ContinuedWithChild f t p) := by
  unfold ContinuedWithChild
  split <;> infer_instance

def NewsListed (t : ProcTable) : Prop :=
  ∀ i < maxTasks, (t.slots i).used = true → ∃ p ∈ t.tasks, p.pid = (t.slots i).parentPid

def ParentListed : TaskFate → ProcTable → Proc → Prop
  | .continued, _, _ => True
  | .reaped, t, p => p.parentPid ≤ 0 ∨ ∃ q ∈ t.tasks, q.pid = p.parentPid
  | .stopped, t, p =>
    p.state = .stopped ∨ p.parentPid ≤ 0 ∨ ∃ q ∈ t.tasks, q.pid = p.parentPid

instance (f : TaskFate) (t : ProcTable) (p : Proc) : Decidable (ParentListed f t p) := by
  unfold ParentListed
  split <;> infer_instance

/-- The terminal belongs to a group with a task running or waiting, or to nobody if there is none.
-/
def TerminalOwned (t : ProcTable) : Prop :=
  (t.foregroundPgid = 0 ∨ ∃ p ∈ t.tasks, p.pgid = t.foregroundPgid ∧ awake p = true) ∧
  (t.foregroundPgid = 0 → ∀ p ∈ t.tasks, p.pid ≠ idlePid → p.pgid ≠ 0 → awake p = false)

/-- The task with this pid is the only one of the foreground group that is running or waiting. -/
def ProcTable.LastInForeground (t : ProcTable) (pid : ℤ) : Prop :=
  (∃ p ∈ t.tasks, p.pid = pid ∧ p.pgid = t.foregroundPgid ∧ awake p = true) ∧
    t.groupHasALiveMember t.foregroundPgid pid = false

/-- A group that is given the terminal has a task to use it, and the last such task does not leave
it. -/
def ProcTable.CallKeepsTerminal (t : ProcTable) (me : Proc) : ProcCall → Prop
  | .tcsetpgrp pgid => pgid ≠ 0 → (∃ c ∈ t.members pgid, c.parentPid = me.pid) →
    ∃ p ∈ t.tasks, p.pgid = pgid ∧ awake p = true
  | .setpgid pid pgid =>
    let pid' := if pid = 0 then me.pid else pid
    let pgid' := if pgid = 0 then pid' else pgid
    (∃ p ∈ t.target? pid', p.pid = me.pid ∨ p.parentPid = me.pid) →
      (pgid' = pid' ∨ t.members pgid' ≠ []) → t.LastInForeground pid' → pgid' = t.foregroundPgid
  | _ => True

/-- The idle task makes no system call, and the others keep the terminal usable. -/
def KeepsTerminal (t : ProcTable) (a : ProcStep) : Prop :=
  match a.op with
  | .inl c => ∀ me ∈ t.caller a.current, me.pid ≠ idlePid ∧ t.CallKeepsTerminal me c
  | .inr _ => True

instance (t : ProcTable) (pid : ℤ) : Decidable (t.LastInForeground pid) :=
  inferInstanceAs (Decidable (_ ∧ _))

instance (t : ProcTable) (me : Proc) (c : ProcCall) : Decidable (t.CallKeepsTerminal me c) := by
  unfold CallKeepsTerminal
  split <;> infer_instance

instance (t : ProcTable) (a : ProcStep) : Decidable (KeepsTerminal t a) := by
  unfold KeepsTerminal
  split <;> infer_instance

end WaitsAndTerminal

end EsdumanOS
