import EsdumanOS.Security
import EsdumanOS.Proofs.Moves
import EsdumanOS.Proofs.Shadow

/-!
# Lockdown and the password rate limit

`set_security_level` never lowers the level, and from `SEC_LEVEL_LOCKDOWN` on `load_and_exec_elf`
makes no task; `sys_fork` does not ask. `auth_fail_ticks` is the tick of the failed check that binds
a task, with 0 for none: `fork` hands it on, `exec` does not.
-/

namespace EsdumanOS

open ProcTable Function List SecState Account Lib

variable {s : SecState} {c : SecCall} {r : RateState} {pid : ℤ}

namespace SecState

def Keeps (s s' : SecState) : Prop :=
  s'.procs.pids = s.procs.pids ∧ s.level ≤ s'.level

section

variable (s)

lemma ret_pids (pid value : ℤ) :
    (s.ret pid value).procs.pids = s.procs.pids :=
  (Steady.ret _ _ _).pids

lemma setUid_pids (pid : ℤ) (uid : ℕ) :
    (s.setUid pid uid).procs.pids = s.procs.pids :=
  modify_pids fun _ => rfl

lemma setSecurityLevel_procs (level : ℕ) : (s.setSecurityLevel level).procs = s.procs := by
  unfold setSecurityLevel
  split_ifs <;> rfl

lemma setSecurityLevel_le (level : ℕ) : s.level ≤ (s.setSecurityLevel level).level := by
  unfold setSecurityLevel
  split_ifs with h
  · exact le_rfl
  · exact not_lt.1 h

lemma sysSetSecLevel_keeps (me : Proc) (ebx : ℕ) : s.Keeps (s.sysSetSecLevel me ebx) := by
  unfold sysSetSecLevel Keeps
  split_ifs
  · exact ⟨ret_pids _ _ _, le_rfl⟩
  · rw [ret_pids, setSecurityLevel_procs]
    exact ⟨rfl, s.setSecurityLevel_le _⟩

lemma sysLockdown_keeps (me : Proc) : s.Keeps (s.sysLockdown me) := by
  unfold sysLockdown Keeps
  split_ifs
  · exact ⟨ret_pids _ _ _, le_rfl⟩
  · exact ⟨ret_pids _ _ _, le_rfl⟩
  · rw [ret_pids, setSecurityLevel_procs]
    exact ⟨rfl, s.setSecurityLevel_le _⟩

lemma sysAuth_keeps (me : Proc) (p : PasswordTry) : s.Keeps (s.sysAuth me p) := by
  unfold sysAuth Keeps
  split_ifs <;> exact ⟨ret_pids _ _ _, le_rfl⟩

lemma sysSetuidCall_keeps (me : Proc) (ebx : ℕ) (p : PasswordTry) :
    s.Keeps (s.sysSetuidCall me ebx p) := by
  unfold sysSetuidCall Keeps
  split_ifs
  · exact ⟨(ret_pids _ _ _).trans (setUid_pids _ _ _), le_rfl⟩
  · exact ⟨ret_pids _ _ _, le_rfl⟩
  · exact ⟨ret_pids _ _ _, le_rfl⟩
  · exact ⟨(ret_pids _ _ _).trans (setUid_pids _ _ _), le_rfl⟩
  · exact ⟨ret_pids _ _ _, le_rfl⟩
  · exact ⟨ret_pids _ _ _, le_rfl⟩

end

lemma withCaller_keeps {f : Proc → SecState} (h : ∀ me, s.Keeps (f me)) :
    s.Keeps (s.withCaller pid f) := by
  unfold withCaller
  split
  · exact h _
  · exact ⟨rfl, le_rfl⟩

lemma secStep_keeps (s : SecState) (c : SecCall) (hc : ∀ a, c ≠ .proc a) :
    s.Keeps (secStep s c) := by
  cases c with
  | proc a => exact absurd rfl (hc a)
  | setSecLevel pid ebx => exact withCaller_keeps fun me => s.sysSetSecLevel_keeps me ebx
  | lockdown pid => exact withCaller_keeps fun me => s.sysLockdown_keeps me
  | auth pid p => exact withCaller_keeps fun me => s.sysAuth_keeps me p
  | setuid pid ebx p => exact withCaller_keeps fun me => s.sysSetuidCall_keeps me ebx p

lemma secStep_nodup (h : s.procs.pids.Nodup) (c : SecCall) :
    (secStep s c).procs.pids.Nodup := by
  by_cases hc : ∃ a, c = .proc a
  · obtain ⟨a, rfl⟩ := hc
    exact procStep_nodup _ _ h
  · rw [(s.secStep_keeps c fun a ha => hc ⟨a, ha⟩).1]
    exact h

end SecState

lemma created_none {t : ProcTable} {a : ProcStep}
    (h : ∀ me memory, t.caller a.current = some me →
      (a.op = .inl (.fork memory) ∨ ∃ b, a.op = .inl (.exec memory b)) →
      t.checkFreeTaskSlot = true → memory ≠ .all) : t.created a = none := by
  have hl : ∀ {memory : Memory} {me : Proc}, (t.checkFreeTaskSlot = true → memory ≠ .all) →
      t.launched memory me = none := by
    intro memory me hm
    unfold launched
    split_ifs with hf
    · rcases t.createProcess_cases memory me with ⟨_, hc⟩ | ⟨hall, _⟩
      · rw [hc]
        rfl
      · exact absurd hall (hm hf)
    · rfl
  unfold created
  split
  · next hop hme => exact hl (h _ _ hme (.inl hop))
  · next hop hme => exact hl (h _ _ hme (.inr ⟨_, hop⟩))
  · rfl

/-- A program is not made in lockdown, whatever the loader finds. -/
lemma gated_created {a : ProcStep} (h : ∀ me memory, s.procs.caller a.current = some me →
      a.op = .inl (.fork memory) ∨ (∃ b, a.op = .inl (.exec memory b)) ∧
        s.level < secLevelLockdown → s.procs.checkFreeTaskSlot = true → memory ≠ .all) :
    s.procs.created (s.gated a) = none := by
  refine created_none fun me memory hme hop hf => ?_
  unfold gated at hme hop
  split at hop
  · next m b hm =>
    rcases hop with hop | ⟨b', hop⟩
    · cases hop
    · split_ifs at hop with hl <;> cases hop
      · exact h me _ (by simpa [hm] using hme) (.inr ⟨⟨_, hm⟩, hl⟩) hf
      · simp
  · next hne =>
    rcases hop with hop | ⟨b, hop⟩
    · exact h me _ (by simpa [hop] using hme) (.inl hop) hf
    · exact absurd hop (hne _ _)

lemma lockdownHolds (hp : s.procs.pids.Nodup) (hok : ForkFails s c) :
    LockdownHolds s c := by
  intro hl
  by_cases hc : ∃ a, c = .proc a
  · obtain ⟨⟨e, current, op⟩, rfl⟩ := hc
    refine ⟨procStep_pids _ _ hp (gated_created fun me memory hme hop hf => ?_), le_rfl⟩
    rcases hop with rfl | ⟨_, hlt⟩
    · exact hok hl (by simp [hme]) hf
    · exact absurd hl hlt.not_ge
  · obtain ⟨hsame, hle⟩ := s.secStep_keeps c fun a ha => hc ⟨a, ha⟩
    exact ⟨hsame ▸ .refl _, hle⟩

/-- In a run in which every `fork` in `SEC_LEVEL_LOCKDOWN` fails, no step adds a task or lowers the
level. -/
theorem secRun_lockdown (cs : List SecCall) (h : StepsMeet secStep ForkFails bootSec cs) :
    StepsMeet secStep LockdownHolds bootSec cs :=
  @StepsMeet.conclude _ _ secStep ForkFails LockdownHolds
    (fun s => s.procs.pids.Nodup) (fun _ c hs _ => secStep_nodup hs c)
    (fun _ _ hs hc => lockdownHolds hs hc) cs bootSec (by decide) h

/-- In lockdown a program is not started, and the level is not lowered. -/
theorem secRun_lockdown_exec : StepsMeet secStep LockdownHolds bootSec
    [.lockdown 1, .proc (.plain 1 (.exec .all true)), .setSecLevel 1 1] :=
  secRun_lockdown _ (by decide)

/-- In lockdown a `fork` adds a task. -/
theorem secRun_lockdown_fork : ¬ StepsMeet secStep LockdownHolds bootSec
    [.lockdown 1, .proc (.plain 1 (.fork .all))] := by
  decide

def FieldBinds (b : Option ℕ) (ticks : ℕ) : Prop :=
  b = none ∧ ticks = 0 ∨ b = some ticks ∧ ticks ≠ 0

/-- Pids name one task each, and every field is the tick of the failed check that binds the task. -/
structure RateInv (r : RateState) : Prop where
  pids : r.sec.procs.pids.Nodup
  field : ∀ pid, FieldBinds (r.boundBy pid) (r.sec.authFailTicks pid)

lemma verifies_caller {x : Proc × PasswordTry × Verdict} (h : s.verifies c = some x) :
    s.limited x.1 x.2.1.now = false := by
  cases c with
  | auth pid p =>
    obtain ⟨me, _, hx⟩ := Option.bind_eq_some_iff.1 h
    split_ifs at hx with hv <;> cases hx <;> exact hv.2
  | setuid pid ebx p =>
    obtain ⟨me, _, hx⟩ := Option.bind_eq_some_iff.1 h
    split_ifs at hx with hv <;> cases hx <;> exact hv.2.2.2
  | proc | setSecLevel | lockdown => cases h

lemma RateInv.kept (h : RateInv r) (c : SecCall) : RateKept r c := by
  intro x hx t ht
  have hl := verifies_caller hx
  rcases h.field x.1.pid with ⟨hn, _⟩ | ⟨hs, hne⟩
  · rw [hn] at ht
    cases ht
  · obtain rfl := Option.some.inj (hs.symm.trans ht)
    simpa [limited, hne] using hl

lemma secStep_fields (hc : ∀ a, c ≠ .proc a) : (secStep s c).authFailTicks =
    match s.verifies c with
    | some (me, _, .accepted) => update s.authFailTicks me.pid 0
    | some (me, p, .failed) => update s.authFailTicks me.pid (u32 p.later)
    | none => s.authFailTicks := by
  cases c with
  | proc a => exact absurd rfl (hc a)
  | setSecLevel pid ebx =>
    simp only [secStep, SecState.withCaller, SecState.verifies, SecState.sysSetSecLevel,
      SecState.setSecurityLevel, SecState.ret]
    repeat' split
    all_goals rfl
  | lockdown pid =>
    simp only [secStep, SecState.withCaller, SecState.verifies, SecState.sysLockdown,
      SecState.setSecurityLevel, SecState.ret]
    repeat' split
    all_goals rfl
  | auth pid p =>
    simp only [secStep, withCaller, verifies]
    rcases s.procs.caller (some pid) with _ | me
    · rfl
    · dsimp only [Option.bind_some]
      unfold SecState.sysAuth
      cases p.readable <;> cases s.limited me p.now <;> by_cases hr : 0 ≤ p.result <;>
        simp [hr, SecState.ret, SecState.setFailTicks]
  | setuid pid ebx p =>
    simp only [secStep, withCaller, verifies]
    rcases s.procs.caller (some pid) with _ | me
    · rfl
    · dsimp only [Option.bind_some]
      unfold SecState.sysSetuidCall
      by_cases hu : me.uid = 0 <;> by_cases hb : ebx = 0 <;> cases p.readable <;>
        cases s.limited me p.now <;> by_cases hr : p.result = 0 <;>
        simp [hu, hb, hr, SecState.ret, SecState.setFailTicks, SecState.setUid]

lemma FieldBinds.update {bound : ℤ → Option ℕ} {ticks : ℤ → ℕ} {b : Option ℕ} {n : ℕ}
    (h : ∀ pid, FieldBinds (bound pid) (ticks pid)) (hb : FieldBinds b n) (me pid : ℤ) :
    FieldBinds (update bound me b pid) (update ticks me n pid) := by
  by_cases hpid : pid = me
  · rw [hpid, update_self, update_self]
    exact hb
  · rw [update_of_ne hpid, update_of_ne hpid]
    exact h pid

lemma born_created {a : ProcStep} (hp : s.procs.pids.Nodup)
    (hb : Born s.procs (s.procCall a).procs pid) :
    ∃ me memory, s.procs.caller a.current = some me ∧ (a.op = .inl (.fork memory) ∨
      (∃ b, a.op = .inl (.exec memory b)) ∧ s.level < secLevelLockdown) ∧
        s.procs.checkFreeTaskSlot = true ∧ memory = .all := by
  by_contra hno
  push Not at hno
  exact hb.2 ((procStep_pids _ _ hp (gated_created hno)).subset hb.1)

lemma RateInv.step (h : RateInv r) (hok : LimitCarried r c) : RateInv (rateStep r c) := by
  refine ⟨secStep_nodup h.pids c, fun pid => ?_⟩
  by_cases hc : ∃ a, c = .proc a
  · obtain ⟨a, rfl⟩ := hc
    have hbu : (rateStep r (.proc a)).boundBy pid =
        if Born r.sec.procs (r.sec.procCall a).procs pid then
          (r.sec.procs.caller a.current).bind fun me => r.boundBy me.pid else r.boundBy pid := rfl
    have hf : (rateStep r (.proc a)).sec.authFailTicks pid =
        if Born r.sec.procs (r.sec.procCall a).procs pid then r.sec.inherited a
        else r.sec.authFailTicks pid := rfl
    rw [hbu, hf]
    by_cases hbo : Born r.sec.procs (r.sec.procCall a).procs pid
    · rw [if_pos hbo, if_pos hbo]
      obtain ⟨me, memory, hme, hop, hroom, rfl⟩ := born_created h.pids hbo
      rw [hme, Option.bind_some]
      obtain ⟨e, current, op⟩ := a
      rcases hop with rfl | ⟨⟨b, rfl⟩, hl⟩
      · simp only [inherited, hme]
        exact h.field me.pid
      · -- the creator is not bound, as it has made a task
        refine .inl ⟨(hok.2 me hme).resolve_right ?_, rfl⟩
        rintro (hle | hfull | hm)
        · exact absurd hle hl.not_ge
        · rw [hroom] at hfull
          cases hfull
        · exact hm rfl
    · rw [if_neg hbo, if_neg hbo]
      exact h.field pid
  · have hc' : ∀ a, c ≠ .proc a := fun a ha => hc ⟨a, ha⟩
    have hbo : ¬ Born r.sec.procs (secStep r.sec c).procs pid :=
      fun hb => hb.2 ((r.sec.secStep_keeps c hc').1 ▸ hb.1)
    simp only [rateStep]
    rw [if_neg hbo, secStep_fields hc']
    rcases hv : r.sec.verifies c with _ | ⟨me, p, _ | _⟩
    · exact h.field pid
    · exact .update h.field (.inl ⟨rfl, rfl⟩) me.pid pid
    · exact .update h.field (.inr ⟨rfl, hok.1 _ hv rfl⟩) me.pid pid

/-- Where no task bound by a failed check makes another by `exec`, and no check fails at tick 0, no
password is verified within `authDelay` ticks of that check. -/
theorem rateRun_kept (cs : List SecCall) (h : StepsMeet rateStep LimitCarried bootRate cs) :
    StepsMeet rateStep RateKept bootRate cs :=
  @StepsMeet.conclude _ _ rateStep LimitCarried RateKept RateInv (fun _ _ hr hc => hr.step hc)
    (fun _ c hr _ => hr.kept c) cs bootRate ⟨by decide, fun _ => .inl ⟨rfl, rfl⟩⟩ h

/-- A child of `fork` waits as its parent does, and a parent that is free again makes a program. -/
theorem rateRun_kept_fork : StepsMeet rateStep RateKept bootRate
    [.auth 1 ⟨true, 5, 6, -1⟩, .proc (.plain 1 (.fork .all)), .auth 2 ⟨true, 7, 8, -1⟩,
      .auth 2 ⟨true, 400, 402, 0⟩, .auth 1 ⟨true, 400, 403, 0⟩,
      .proc (.plain 1 (.exec .all true))] :=
  rateRun_kept _ (by decide)

/-- A check fails at tick 6, and the program that the task then starts tries again at tick 7. -/
theorem rateRun_exec_escapes : ¬ StepsMeet rateStep RateKept bootRate
    [.auth 1 ⟨true, 5, 6, -1⟩, .proc (.plain 1 (.exec .all true)), .auth 2 ⟨true, 7, 8, -1⟩] := by
  decide

/-- A check fails when the counter wraps, and the task tries again in the next tick. -/
example : ¬ StepsMeet rateStep RateKept bootRate
    [.auth 1 ⟨true, 2 ^ 32 - 1, 2 ^ 32, -1⟩, .auth 1 ⟨true, 2 ^ 32 + 1, 2 ^ 32 + 1, -1⟩] := by
  decide

/-! ## The two password paths -/

lemma verifyResult_eq_zero {r : Except Errno ℤ} : verifyResult r = 0 ↔ r = .ok 0 := by
  rcases r with e | uid
  · cases e <;> simp [verifyResult, eAcces, eInval]
  · simp [verifyResult]

lemma SecState.ret_returned {me : Proc} (h : me.pid ∈ s.procs.pids) (v : ℤ) :
    (s.ret me.pid v).returned me = some v := by
  have hs : ((s.ret me.pid v).procs.task? me.pid).isSome := by
    rw [task?, find?_isSome]
    rw [← s.ret_pids me.pid v, mem_map] at h
    obtain ⟨p, hp, heq⟩ := h
    exact ⟨p, hp, by simpa using heq⟩
  obtain ⟨p, hp⟩ := Option.isSome_iff_exists.1 hs
  obtain ⟨hmem, hpid⟩ := mem_of_task? hp
  obtain ⟨q, -, rfl⟩ := mem_map.1 hmem
  rw [returned, hp]
  split_ifs at hpid ⊢ with hq
  · rfl
  · exact absurd hpid hq

variable {kdf : Kdf} {file : ShadowFile} {me : Proc} {now later : ℕ} {pass : List UInt8}

lemma password_agree_iff (hme : me ∈ s.procs.tasks) (hu : me.uid ≠ 0)
    (hl : s.limited me now = false) :
    ((s.sysSetuidWith kdf file me now later pass).returned me = some 0 ↔
      (s.sysAuthWith kdf file me now later (asciiText "root") pass).returned me = some 0) ↔
    (verifyUserPassword kdf file (asciiText "root") (dropTail ['\n', '\r'] pass) = .ok 0 ↔
      verifyUserPassword kdf file (asciiText "root")
        (dropTail ['\n', '\r', ' '] pass) = .ok 0) := by
  have hp : me.pid ∈ s.procs.pids := mem_map_of_mem hme
  have hfail (v : ℤ) (n : ℕ) : ((s.setFailTicks me.pid n).ret me.pid v).returned me = some v :=
    ret_returned hp v
  have hset : (((s.setUid me.pid 0).setFailTicks me.pid 0).ret me.pid 0).returned me = some 0 :=
    ret_returned (by rwa [← s.setUid_pids me.pid 0] at hp) 0
  rw [← verifyResult_eq_zero, ← verifyResult_eq_zero, sysSetuidWith, sysAuthWith,
    sysSetuidCall, sysAuth]
  generalize verifyResult _ = r₁
  generalize verifyResult _ = r₂
  simp only [hu, hl, if_false, if_true, Bool.not_true, Bool.false_eq_true]
  split_ifs <;> simp_all [eAcces, eFault] <;> omega

/-- The loop that drops spaces as well cuts more just if a space comes before the line ends. -/
lemma dropTail_eq_iff (pass : List UInt8) :
    dropTail ['\n', '\r'] pass = dropTail ['\n', '\r', ' '] pass ↔
      (dropTail ['\n', '\r'] pass).getLast? ≠ some (ascii ' ') := by
  unfold dropTail
  rw [reverse_inj, getLast?_reverse]
  induction pass.reverse with
  | nil => simp
  | cons c cs ih =>
    by_cases hline : c ∈ ['\n', '\r'].map ascii
    · have hmem : c ∈ ['\n', '\r', ' '].map ascii := by
        simp only [map_cons, mem_cons] at hline ⊢
        tauto
      rwa [dropWhile_cons_of_pos (by simpa using hline),
        dropWhile_cons_of_pos (by simpa using hmem)]
    · rw [dropWhile_cons_of_neg (by simpa using hline), head?_cons]
      by_cases hc : c = ascii ' '
      · have hle := (dropWhile_sublist (· ∈ ['\n', '\r', ' '].map ascii) (l := cs)).length_le
        rw [dropWhile_cons_of_pos (by simp [hc]), hc]
        refine iff_of_false (fun heq => ?_) (not_not.2 rfl)
        rw [← heq, length_cons] at hle
        omega
      · rw [dropWhile_cons_of_neg (by simp_all)]
        simpa using hc

/-- The shadow file with the line that `create_shadow_entry` makes of root's password. -/
def rootFile (kdf : Kdf) (salt : Bytes 16) (password : List UInt8) : ShadowFile :=
  .contents (shadowText false [line kdf ⟨asciiText "root", password, 0, salt, 512⟩])

lemma verify_rootFile (salt : Bytes 16) (p q : List UInt8) :
    verifyUserPassword kdf (rootFile kdf salt p) (asciiText "root") q = .ok 0 ↔
      kdf q salt.1 pbkdf2DefaultIterations = kdf p salt.1 pbkdf2DefaultIterations := by
  have hplain : Plain ⟨asciiText "root", p, 0, salt, 512⟩ :=
    ⟨by simp [asciiText, ascii], by simp⟩
  refine (verifyLines_shadowText false [_] 1023 (by simpa using hplain)).trans ?_
  rw [decided, if_pos (by rfl), uidWithin_line hplain (Nat.le_of_ble_eq_true rfl),
    if_congr (and_iff_right (Nat.le_of_ble_eq_true rfl)) rfl rfl]
  unfold Account.Accepts
  split_ifs with hk <;> simp [hk]

/-- The key function tells the one password from the other under some salt. -/
def Tells (kdf : Kdf) (p q : List UInt8) : Prop :=
  ∃ salt : Bytes 16, kdf p salt.1 pbkdf2DefaultIterations ≠ kdf q salt.1 pbkdf2DefaultIterations

/-- The two ways to give root's password agree under every shadow file exactly if both trimming
loops leave the same string, that is, if no space comes before the line ends at its end. -/
theorem passwordPaths_agree_iff (hme : me ∈ s.procs.tasks) (hu : me.uid ≠ 0)
    (hl : s.limited me now = false)
    (hk : dropTail ['\n', '\r'] pass ≠ dropTail ['\n', '\r', ' '] pass →
      Tells kdf (dropTail ['\n', '\r'] pass) (dropTail ['\n', '\r', ' '] pass)) :
    ((∀ file, (s.sysSetuidWith kdf file me now later pass).returned me = some 0 ↔
      (s.sysAuthWith kdf file me now later (asciiText "root") pass).returned me = some 0) ↔
        dropTail ['\n', '\r'] pass = dropTail ['\n', '\r', ' '] pass) ∧
    (dropTail ['\n', '\r'] pass = dropTail ['\n', '\r', ' '] pass ↔
      (dropTail ['\n', '\r'] pass).getLast? ≠ some (ascii ' ')) := by
  refine ⟨⟨fun h => ?_, fun h file => ?_⟩, dropTail_eq_iff pass⟩
  · by_contra hne
    obtain ⟨salt, hsalt⟩ := hk hne
    have hv := (password_agree_iff hme hu hl).1
      (h (rootFile kdf salt (dropTail ['\n', '\r', ' '] pass)))
    rw [verify_rootFile, verify_rootFile] at hv
    exact hsalt (hv.2 rfl)
  · exact (password_agree_iff hme hu hl).2 (by rw [h])

/-- A shadow file in which `x` is root's password, under a key function that tells `x` from the
rest. -/
def rootShadow : ShadowFile :=
  .contents (asciiText ("root:$v1$600000$" ++ "".pushn '0' 32 ++ "$" ++ "".pushn '0' 64 ++ ":0"))

def tellsX : Kdf := fun pass _ _ =>
  ⟨List.replicate 32 (if pass = asciiText "x" then 0 else 1), List.length_replicate⟩

/-- A password with a line end behind it. -/
theorem passwordPaths_agree_newline : ∃ me ∈ (bootSec.setUid 1 5).procs.tasks, me.uid ≠ 0 ∧
    ∀ file, ((bootSec.setUid 1 5).sysSetuidWith tellsX file me 0 0 (asciiText "x\n")).returned me =
        some 0 ↔
      ((bootSec.setUid 1 5).sysAuthWith tellsX file me 0 0 (asciiText "root")
        (asciiText "x\n")).returned me = some 0 :=
  ⟨_, List.mem_cons_of_mem _ List.mem_cons_self, by decide,
    (passwordPaths_agree_iff (List.mem_cons_of_mem _ List.mem_cons_self) (by decide) (by decide)
      (absurd (by decide))).1.2 (by decide)⟩

/-- With a space behind it, `sys_auth` takes the password and `sys_setuid_call` does not. -/
theorem passwordPaths_space : ∃ me ∈ (bootSec.setUid 1 5).procs.tasks, me.uid ≠ 0 ∧
    ((bootSec.setUid 1 5).sysAuthWith tellsX rootShadow me 0 0 (asciiText "root")
      (asciiText "x ")).returned me = some 0 ∧
    ((bootSec.setUid 1 5).sysSetuidWith tellsX rootShadow me 0 0 (asciiText "x ")).returned me ≠
      some 0 := by
  decide +kernel

end EsdumanOS
