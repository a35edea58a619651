import EsdumanOS.Process
import EsdumanOS.Shadow

/-!
# Security level and password checks

The calls of `sys_sec.c`: the security level, which `load_and_exec_elf` asks before it makes a task,
and the rate limit of `sys_auth` and `sys_setuid_call`, a field of each task that `fork` copies and
`create_process` clears.
-/

namespace EsdumanOS

open ProcTable

def secLevelCryptoEnforced : ℕ := 1
def secLevelLockdown : ℕ := 2

def authDelay : ℕ := 300

def eAcces : ℤ := -13

/-- `now - then` of the tick counter. -/
def ticksSince (now earlier : ℕ) : ℕ := u32 (u32 now + 2 ^ 32 - u32 earlier)

structure SecState where
  procs : ProcTable
  level : ℕ
  authFailTicks : ℤ → ℕ

/-- Whether the strings can be read, the ticks before and after, and what `verify_user_password`
says. -/
structure PasswordTry where
  readable : Bool
  now : ℕ
  later : ℕ
  result : ℤ

inductive SecCall
  | proc (a : ProcStep)
  | setSecLevel (pid : ℤ) (ebx : ℕ)
  | lockdown (pid : ℤ)
  | auth (pid : ℤ) (p : PasswordTry)
  | setuid (pid : ℤ) (ebx : ℕ) (p : PasswordTry)

namespace SecState

variable (s : SecState)

/-- A call returns `value`. -/
def ret (pid value : ℤ) : SecState := { s with procs := s.procs.ret pid value }

def setSecurityLevel (level : ℕ) : SecState :=
  if level < s.level then s else { s with level := level }

def sysSetSecLevel (me : Proc) (ebx : ℕ) : SecState :=
  if me.uid ≠ 0 then s.ret me.pid ePerm else (s.setSecurityLevel (u32 ebx)).ret me.pid 0

def sysLockdown (me : Proc) : SecState :=
  if me.uid ≠ 0 then s.ret me.pid ePerm
  else if secLevelLockdown ≤ s.level then s.ret me.pid 0
  else (s.setSecurityLevel secLevelLockdown).ret me.pid 0

/-- The caller has failed a check less than `authDelay` ticks ago. -/
def limited (me : Proc) (now : ℕ) : Bool :=
  decide (s.authFailTicks me.pid ≠ 0 ∧ ticksSince now (s.authFailTicks me.pid) < authDelay)

def setFailTicks (pid : ℤ) (ticks : ℕ) : SecState :=
  { s with authFailTicks := Function.update s.authFailTicks pid ticks }

def sysAuth (me : Proc) (p : PasswordTry) : SecState :=
  if !p.readable then s.ret me.pid eFault
  else if s.limited me p.now then s.ret me.pid eFault
  else if 0 ≤ p.result then (s.setFailTicks me.pid 0).ret me.pid p.result
  else (s.setFailTicks me.pid (u32 p.later)).ret me.pid eFault

def setUid (pid : ℤ) (uid : ℕ) : SecState :=
  { s with procs := s.procs.modify pid fun p => { p with uid := uid } }

def sysSetuidCall (me : Proc) (ebx : ℕ) (p : PasswordTry) : SecState :=
  if me.uid = 0 then (s.setUid me.pid ebx).ret me.pid 0
  else if ebx = 0 then
    if !p.readable then s.ret me.pid eFault
    else if s.limited me p.now then s.ret me.pid eAcces
    else if p.result = 0 then ((s.setUid me.pid 0).setFailTicks me.pid 0).ret me.pid 0
    else (s.setFailTicks me.pid (u32 p.later)).ret me.pid eAcces
  else s.ret me.pid ePerm

/-- `load_and_exec_elf` makes no task in `SEC_LEVEL_LOCKDOWN`. -/
def gated (a : ProcStep) : ProcStep :=
  match a.op with
  | .inl (.exec memory noWait) =>
    { a with op := .inl (.exec (if s.level < secLevelLockdown then memory else .none) noWait) }
  | _ => a

/-- The `auth_fail_ticks` of a new task: `inherit_pcb_state` copies the parent's, `create_process`
alone leaves 0. -/
def inherited (a : ProcStep) : ℕ :=
  match a.op, s.procs.caller a.current with
  | .inl (.fork _), some me => s.authFailTicks me.pid
  | _, _ => 0

def Born (t t' : ProcTable) (pid : ℤ) : Prop :=
  pid ∈ t'.pids ∧ pid ∉ t.pids

instance (t t' : ProcTable) (pid : ℤ) : Decidable (Born t t' pid) :=
  inferInstanceAs (Decidable (_ ∧ _))

def procCall (a : ProcStep) : SecState :=
  let t' := procStep s.procs (s.gated a)
  { s with
    procs := t'
    authFailTicks := fun pid => if Born s.procs t' pid then s.inherited a else s.authFailTicks pid }

end SecState

def SecState.withCaller (s : SecState) (pid : ℤ) (f : Proc → SecState) : SecState :=
  match s.procs.caller (some pid) with
  | some me => f me
  | none => s

def secStep (s : SecState) : SecCall → SecState
  | .proc a => s.procCall a
  | .setSecLevel pid ebx => s.withCaller pid fun me => s.sysSetSecLevel me ebx
  | .lockdown pid => s.withCaller pid s.sysLockdown
  | .auth pid p => s.withCaller pid fun me => s.sysAuth me p
  | .setuid pid ebx p => s.withCaller pid fun me => s.sysSetuidCall me ebx p

def bootSec : SecState := ⟨bootTable, secLevelCryptoEnforced, fun _ => 0⟩

/-- In `SEC_LEVEL_LOCKDOWN` or above a step adds no task and does not lower the level. -/
def LockdownHolds (s : SecState) (c : SecCall) : Prop :=
  secLevelLockdown ≤ s.level →
    (secStep s c).procs.pids.Sublist s.procs.pids ∧
      s.level ≤ (secStep s c).level

/-- In `SEC_LEVEL_LOCKDOWN` or above a `fork` finds no free task or no memory. -/
def ForkFails (s : SecState) : SecCall → Prop
  | .proc ⟨_, current, .inl (.fork memory)⟩ => secLevelLockdown ≤ s.level →
    (s.procs.caller current).isSome = true → s.procs.checkFreeTaskSlot = true → memory ≠ .all
  | _ => True

instance (s : SecState) (c : SecCall) : Decidable (LockdownHolds s c) :=
  inferInstanceAs (Decidable (_ → _ ∧ _))

instance (s : SecState) (c : SecCall) : Decidable (ForkFails s c) := by
  unfold ForkFails
  split <;> infer_instance

/-- Beside the state, the tick of the failed check that binds each task: its own, or its maker's. -/
structure RateState where
  sec : SecState
  boundBy : ℤ → Option ℕ

inductive Verdict
  | accepted | failed
  deriving DecidableEq, Repr

/-- The password check that a call makes: the caller and what it gave. -/
def SecState.verifies (s : SecState) : SecCall → Option (Proc × PasswordTry × Verdict)
  | .auth pid p =>
    (s.procs.caller (some pid)).bind fun me =>
      if p.readable ∧ s.limited me p.now = false then
        some (me, p, if 0 ≤ p.result then .accepted else .failed)
      else none
  | .setuid pid ebx p =>
    (s.procs.caller (some pid)).bind fun me =>
      if me.uid ≠ 0 ∧ ebx = 0 ∧ p.readable ∧ s.limited me p.now = false then
        some (me, p, if p.result = 0 then .accepted else .failed)
      else none
  | _ => none

def SecState.creator (s : SecState) : SecCall → Option Proc
  | .proc a => s.procs.caller a.current
  | _ => none

def rateStep (r : RateState) (c : SecCall) : RateState :=
  let s' := secStep r.sec c
  let bound := match r.sec.verifies c with
    | some (me, _, .accepted) => Function.update r.boundBy me.pid none
    | some (me, p, .failed) => Function.update r.boundBy me.pid (some (u32 p.later))
    | none => r.boundBy
  { sec := s'
    boundBy := fun pid => if SecState.Born r.sec.procs s'.procs pid then
      (r.sec.creator c).bind fun me => r.boundBy me.pid else bound pid }

def bootRate : RateState := ⟨bootSec, fun _ => none⟩

/-- A password is verified only by a task that no failed check binds, or `authDelay` ticks after
it. -/
def RateKept (r : RateState) (c : SecCall) : Prop :=
  ∀ x ∈ r.sec.verifies c, ∀ t ∈ r.boundBy x.1.pid, authDelay ≤ ticksSince x.2.1.now t

/-- A task bound by a failed check makes no other by `exec`, and no check fails at tick 0. -/
def LimitCarried (r : RateState) (c : SecCall) : Prop :=
  (∀ x ∈ r.sec.verifies c, x.2.2 = .failed → u32 x.2.1.later ≠ 0) ∧
  match c with
  | .proc ⟨_, current, .inl (.exec memory _)⟩ => ∀ me ∈ r.sec.procs.caller current,
    r.boundBy me.pid = none ∨ secLevelLockdown ≤ r.sec.level ∨
      r.sec.procs.checkFreeTaskSlot = false ∨ memory ≠ .all
  | _ => True

instance (r : RateState) (c : SecCall) : Decidable (RateKept r c) :=
  inferInstanceAs (Decidable (∀ x ∈ _, ∀ t ∈ _, _))

instance (r : RateState) (c : SecCall) : Decidable (LimitCarried r c) := by
  unfold LimitCarried
  split <;> infer_instance

section Passwords

/-- What `verify_user_password` returns. -/
def verifyResult : Except Errno ℤ → ℤ
  | .ok uid => uid
  | .error .noent => -2
  | .error .io => -5
  | .error .acces => eAcces
  | .error _ => eInval

/-- The loop that shortens a password while its last character is one of `cut`. -/
def dropTail (cut : List Char) (pass : List UInt8) : List UInt8 :=
  (pass.reverse.dropWhile (· ∈ cut.map ascii)).reverse

variable (kdf : Kdf) (file : ShadowFile)

/-- `sys_auth` on strings that can be read. -/
def SecState.sysAuthWith (s : SecState) (me : Proc) (now later : ℕ) (user pass : List UInt8) :
    SecState :=
  let pass := dropTail ['\n', '\r', ' '] pass
  s.sysAuth me ⟨true, now, later, verifyResult (verifyUserPassword kdf file user pass)⟩

/-- `sys_setuid_call` for uid 0, on a password that can be read. -/
def SecState.sysSetuidWith (s : SecState) (me : Proc) (now later : ℕ) (pass : List UInt8) :
    SecState :=
  let pass := dropTail ['\n', '\r'] pass
  s.sysSetuidCall me 0
    ⟨true, now, later, verifyResult (verifyUserPassword kdf file (asciiText "root") pass)⟩

/-- What the last call of a task has returned. -/
def SecState.returned (s : SecState) (me : Proc) : Option ℤ := (s.procs.task? me.pid).map Proc.eax

end Passwords

end EsdumanOS
