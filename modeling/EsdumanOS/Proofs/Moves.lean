import EsdumanOS.Proofs.Process

/-!
# What a step moves

`Moves` lists what a call does beside leaving the table `Steady`: it makes a task, collects a
notice, ends or stops its caller, moves a task to another group or the terminal to one. A signal
does less (`SignalMoves`), but may continue a task.
-/

namespace EsdumanOS

open List

namespace ProcTable

variable {t t' t₁ : ProcTable} {p q me : Proc} {pid : ℤ} {who : MaySleep}

section Calls

variable (t)

lemma steady_registerUserSignal (me : Proc) (sig : ℤ) (handler : Handler)
    (addrOk : Bool) : Steady nobody t (t.registerUserSignal me sig handler addrOk) := by
  unfold registerUserSignal
  split_ifs
  · exact .ret t _ _
  · exact .ret t _ _
  · exact .modify fun _ _ _ => .of_life rfl

lemma deliver_life (addrOk : Bool) : ∀ (is : List ℕ) (p : Proc), (deliver addrOk p is).life = p.life
  | [], _ => rfl
  | i :: is, p => by
    unfold deliver
    dsimp only
    split
    · exact deliver_life addrOk is p
    · split
      · split_ifs <;> rfl
      · exact deliver_life addrOk is _

lemma steady_checkAndDeliverSignals (addrOk : Bool) (me : Proc) :
    Steady nobody t (t.checkAndDeliverSignals addrOk me) := by
  unfold checkAndDeliverSignals
  split_ifs
  · exact .refl _ t
  · exact .modify fun _ _ _ => .of_life (deliver_life addrOk _ _)

/-- `wait` leaves the table of before, or the one with a notice taken out, steady. -/
lemma sysWait_steady (hp : t.pids.Nodup) (hme : me ∈ t.tasks)
    (hr : me.state = .running) (noHang untraced ptrOk copyOk : Bool) :
    ∃ t₁, (t₁ = t ∨ ∃ stopped, t₁ = (t.takeParked stopped me.pid).2) ∧
      Steady (callerOnly me.pid none) t₁ (t.sysWait me noHang untraced ptrOk copyOk) := by
  unfold sysWait
  dsimp only
  split
  · exact ⟨t, .inl rfl, (Steady.ret t _ _).mono⟩
  · split
    · exact ⟨_, .inr ⟨false, rfl⟩, (Steady.report _ _ _ _ _).mono⟩
    · rename_i hs
      cases untraced with
      | true => exact ⟨_, .inr ⟨true, rfl⟩, (Steady.report _ _ _ _ _).mono⟩
      | false => simp at hs
    · split_ifs
      · exact ⟨t, .inl rfl, (Steady.ret t _ _).mono⟩
      · exact ⟨t, .inl rfl, (Steady.ret t _ _).mono⟩
      · exact ⟨t, .inl rfl, .sleep hp hme hr (by simp)⟩

def adopt (pid next : ℤ) (creator : Proc) : ProcTable :=
  { t with tasks := t.tasks ++ [newProc pid creator], nextPid := next }

/-- A task is made only with a pid that no other has. -/
lemma createProcess_cases (memory : Memory) (me : Proc) :
    (∃ next, t.createProcess memory me = (none, { t with nextPid := next })) ∨
      memory = .all ∧ ∃ pid next,
        allocatePid t.held (t.held.length + 1) t.nextPid = some (pid, next) ∧ pid ∉ t.pids ∧
        t.createProcess memory me = (some pid, t.adopt pid next me) := by
  unfold createProcess
  split
  · exact .inl ⟨t.nextPid, rfl⟩
  · rename_i pid next ha
    split_ifs with hall
    · exact .inr ⟨hall, pid, next, ha,
        fun hin => (allocatePid_fresh ha).2 (mem_append_left _ hin), rfl⟩
    · exact .inl ⟨next, rfl⟩

/-- A pid is used up: the counter is not part of what stays. -/
lemma Steady.counter (next : ℤ) : Steady who t { t with nextPid := next } :=
  ⟨⟨rfl, rfl, rfl⟩, (Steady.refl _ t).tasks⟩

lemma adopt_pids {next : ℤ} : (t.adopt pid next me).pids = t.pids ++ [pid] := by
  simp [pids, adopt, newProc]

lemma adopt_nodup (hp : t.pids.Nodup) {next : ℤ} (h : pid ∉ t.pids) :
    (t.adopt pid next me).pids.Nodup := by
  rw [adopt_pids, ← concat_eq_append]
  exact hp.concat h

lemma mem_adopt {next : ℤ} (hq : q ∈ (t.adopt pid next me).tasks) :
    q ∈ t.tasks ∨ q = newProc pid me :=
  (mem_append.1 hq).imp_right mem_singleton.1

lemma sysFork_moves (memory : Memory) (me : Proc) :
    t.launched memory me = none ∧ Steady nobody t (t.sysFork memory me) ∨
      ∃ pid next, pid ∉ t.pids ∧
        Steady nobody (t.adopt pid next me) (t.sysFork memory me) ∧
        t.launched memory me = some (pid, me) := by
  unfold sysFork launched
  rcases hf : t.checkFreeTaskSlot with _ | _
  · exact .inl ⟨rfl, .ret t _ _⟩
  rcases t.createProcess_cases memory me with ⟨next, hc⟩ | ⟨rfl, pid, next, -, hfresh, hc⟩
  · rw [hc]
    refine .inl ⟨rfl, ?_⟩
    dsimp only
    split_ifs
    · exact .ret t _ _
    · exact .ret t _ _
    · exact (Steady.counter t next).trans (.ret _ _ _)
  · rw [hc]
    refine .inr ⟨pid, next, hfresh, .trans (.modify fun p _ _ => ?_) (.ret _ _ _), rfl⟩
    exact .of_life rfl

lemma sysExec_moves (hpi : t.pids.Nodup) (hme : me ∈ t.tasks)
    (hr : me.state = .running) (memory : Memory) (noWait : Bool) :
    t.launched memory me = none ∧ Steady nobody t (t.sysExec memory noWait me) ∨
      ∃ pid next, pid ∉ t.pids ∧
        Steady (callerOnly me.pid (some pid)) (t.adopt pid next me) (t.sysExec memory noWait me) ∧
        t.launched memory me = some (pid, me) := by
  unfold sysExec launched
  rcases hf : t.checkFreeTaskSlot with _ | _
  · exact .inl ⟨rfl, .ret t _ _⟩
  rcases t.createProcess_cases memory me with ⟨next, hc⟩ | ⟨rfl, pid, next, -, hfresh, hc⟩
  · rw [hc]
    refine .inl ⟨rfl, ?_⟩
    dsimp only
    split_ifs
    · exact .ret t _ _
    · exact (Steady.counter t next).trans (.ret _ _ _)
  · rw [hc]
    refine .inr ⟨pid, next, hfresh, ?_, rfl⟩
    cases noWait with
    | true => exact (Steady.ret _ _ _).mono
    | false =>
      -- the caller, now with an `exec` child, goes to sleep
      have hp' : (t.adopt pid next me).pids.Nodup := t.adopt_nodup hpi hfresh
      have hm' : me ∈ (t.adopt pid next me).tasks := mem_append_left _ hme
      let asleep : Proc → Proc := fun p => { p with execChildPid := pid, eax := 0 }
      have h1 : Steady (callerOnly me.pid (some pid)) (t.adopt pid next me)
          ((t.adopt pid next me).modify me.pid asleep) := by
        refine .modify fun p hp hpid => ⟨rfl, rfl, rfl, .inl ⟨rfl, fun hw => ?_⟩⟩
        obtain rfl := eq_of_pid hp' hp hm' hpid
        exact absurd (hr.symm.trans hw) (by simp)
      refine h1.trans (@Steady.sleep _ (asleep me) _ _ (h1.pids ▸ hp') ?_ hr fun _ => rfl)
      exact mem_map.2 ⟨me, hm', if_pos rfl⟩

lemma sysSetpgid_moves (me : Proc) (pid pgid : ℤ) :
    Steady nobody t (t.sysSetpgid me pid pgid) ∨
      ∃ pid' pgid', pid' = (if pid = 0 then me.pid else pid) ∧
        pgid' = (if pgid = 0 then pid' else pgid) ∧
        (∃ p ∈ t.target? pid', p.pid = me.pid ∨ p.parentPid = me.pid) ∧
        (pgid' = pid' ∨ t.members pgid' ≠ []) ∧
        t.sysSetpgid me pid pgid =
          (t.modify pid' fun p => { p with pgid := pgid' }).ret me.pid 0 := by
  unfold sysSetpgid
  dsimp only
  generalize (if pid = 0 then me.pid else pid) = pid'
  generalize hpgid : (if pgid = 0 then pid' else pgid) = pgid'
  split
  · exact .inl (.ret t _ _)
  · rename_i target htarget
    split
    · exact .inl (.ret t _ _)
    · split
      · exact .inl (.ret t _ _)
      · refine .inr ⟨pid', pgid', rfl, hpgid.symm, ⟨target, htarget, ?_⟩, ?_, rfl⟩ <;> tauto

lemma sysTcsetpgrp_moves (me : Proc) (pgid : ℤ) :
    Steady nobody t (t.sysTcsetpgrp me pgid) ∨
      pgid ≠ 0 ∧ (me.pgid = pgid ∨ ∃ p ∈ t.members pgid, p.parentPid = me.pid) ∧
        t.sysTcsetpgrp me pgid = { t.ret me.pid 0 with foregroundPgid := pgid } := by
  unfold sysTcsetpgrp
  split_ifs with hz _ hown
  · exact .inl (.ret t _ _)
  · exact .inl (.ret t _ _)
  · exact .inr ⟨hz, hown, rfl⟩
  · exact .inl (.ret t _ _)

end Calls

def waits (t : ProcTable) (a : ProcStep) : Bool :=
  match a.op, t.caller a.current with
  | .inl (.wait _ _ _ _), some _ => true
  | _, _ => false

inductive Moves (t : ProcTable) (a : ProcStep) : ProcTable → Prop
  | steady {t' : ProcTable} {who : MaySleep}
    (hop : t.created a = none ∧ t.callFate a = none ∧ t.waits a = false)
    (hwho : ∀ pid reason child, who pid reason child → reason ≠ .child ∧
      ∃ me c, t.caller a.current = some me ∧ a.op = .inl c ∧ pid = me.pid)
    (h : Steady who t t') : Moves t a t'
  | wait {me : Proc} {t₁ : ProcTable} (hme : t.caller a.current = some me)
    {noHang untraced ptrOk copyOk : Bool} (hop : a.op = .inl (.wait noHang untraced ptrOk copyOk))
    (htook : t₁ = t ∨ ∃ stopped, t₁ = (t.takeParked stopped me.pid).2)
    (h : Steady (callerOnly me.pid none) t₁ (t.sysWait me noHang untraced ptrOk copyOk)) :
    Moves t a (t.sysWait me noHang untraced ptrOk copyOk)
  | create {me : Proc} {pid next : ℤ} {t' : ProcTable} (hme : t.caller a.current = some me)
    (hop : (∃ m, a.op = .inl (.fork m)) ∨ ∃ m b, a.op = .inl (.exec m b))
    (hfresh : pid ∉ t.pids)
    (h : Steady (callerOnly me.pid (some pid)) (t.adopt pid next me) t')
    (hmade : t.created a = some (pid, me)) : Moves t a t'
  | reap {me : Proc} {t₁ : ProcTable} (hme : t.caller a.current = some me)
    (hfate : t.callFate a = some (me, .reaped)) (h : Marks t t₁)
    (hcode : ∀ v ∈ t₁.tasks, v.pid = me.pid → v.exitCode = t.callStatus a) :
    Moves t a (t₁.reapTask a.env me.pid)
  | stop {me : Proc} (hme : t.caller a.current = some me)
    (hfate : t.callFate a = some (me, .stopped)) (sig : ℕ) : Moves t a (t.stopTask me.pid sig)
  | group {me : Proc} {pid pgid pid' pgid' : ℤ} (hme : t.caller a.current = some me)
    (hop : a.op = .inl (.setpgid pid pgid)) (hpid : pid' = if pid = 0 then me.pid else pid)
    (hpgid : pgid' = if pgid = 0 then pid' else pgid)
    (hown : ∃ p ∈ t.target? pid', p.pid = me.pid ∨ p.parentPid = me.pid)
    (hgroup : pgid' = pid' ∨ t.members pgid' ≠ []) :
    Moves t a ((t.modify pid' fun p => { p with pgid := pgid' }).ret me.pid 0)
  | terminal {me : Proc} {pgid : ℤ} (hme : t.caller a.current = some me)
    (hop : a.op = .inl (.tcsetpgrp pgid)) (hpgid : pgid ≠ 0)
    (hown : me.pgid = pgid ∨ ∃ p ∈ t.members pgid, p.parentPid = me.pid) :
    Moves t a { t.ret me.pid 0 with foregroundPgid := pgid }

lemma Moves.quiet {a : ProcStep}
    (hop : t.created a = none ∧ t.callFate a = none ∧ t.waits a = false)
    (h : Steady nobody t t') : Moves t a t' :=
  .steady hop (fun _ _ _ hw => absurd hw id) h

lemma Moves.call {a : ProcStep} {c : ProcCall} (hme : t.caller a.current = some me)
    (hc : a.op = .inl c) (hop : t.created a = none ∧ t.callFate a = none ∧ t.waits a = false)
    (h : Steady (callerOnly me.pid none) t t') : Moves t a t' :=
  .steady hop (fun _ _ _ hw => ⟨fun hr => by simpa using hw.2 hr, me, c, hme, hc, hw.1⟩) h

lemma applyDefaultSignalAction_moves (t : ProcTable) (e : ReapEnv) (me : Proc) :
    (settleFate me = none ∧ Steady nobody t (t.applyDefaultSignalAction e me)) ∨
    (settleFate me = some .reaped ∧ ∃ t₁, Marks t t₁ ∧
      (∀ v ∈ t₁.tasks, v.pid = me.pid → v.exitCode = 128 + (defaultAction me).getD 0) ∧
      t.applyDefaultSignalAction e me = t₁.reapTask e me.pid) ∨
    (settleFate me = some .stopped ∧
      ∃ i, t.applyDefaultSignalAction e me = t.stopTask me.pid i) := by
  unfold applyDefaultSignalAction settleFate
  split
  · refine .inl ⟨rfl, .modify fun p _ _ => ?_⟩
    exact .of_life rfl
  · rcases defaultAction me with _ | i
    · exact .inl ⟨rfl, .refl nobody t⟩
    · dsimp only [Option.map_some, Option.getD_some]
      split_ifs
      · refine .inr (.inl ⟨rfl, _, .modify fun p => rfl, fun v hv hpid => ?_, rfl⟩)
        obtain ⟨p, rfl⟩ := mem_modify hv hpid
        rfl
      · exact .inr (.inr ⟨rfl, i, rfl⟩)

/-- What a call does before the signals it sends, call by call. -/
lemma act_moves (t : ProcTable) (a : ProcStep) (hp : t.pids.Nodup) :
    Moves t a (t.act a) := by
  rcases a with ⟨e, current, c | ev⟩
  · rcases hc : t.caller current with _ | me
    · exact .quiet (by simp [created, callFate, waits, hc])
        (by simpa [act, hc] using .refl _ t)
    obtain ⟨hmem, hr, rfl⟩ := caller_running hc
    cases c with
    | fork memory =>
      simp only [act, hc]
      rcases t.sysFork_moves memory me with ⟨hn, h⟩ | ⟨pid, next, hfresh, h, hmade⟩
      · exact .quiet (by simp [created, callFate, waits, hc, hn]) h
      · exact .create hc (.inl ⟨_, rfl⟩) hfresh h.mono (by simp [created, hc, hmade])
    | exec memory noWait =>
      simp only [act, hc]
      rcases t.sysExec_moves hp hmem hr memory noWait with ⟨hn, h⟩ | ⟨pid, next, hfresh, h, hmade⟩
      · exact .quiet (by simp [created, callFate, waits, hc, hn]) h
      · exact .create hc (.inr ⟨_, _, rfl⟩) hfresh h (by simp [created, hc, hmade])
    | exit ebx =>
      simp only [act, hc, sysExit]
      refine .reap hc (by simp [callFate, hc]) (.modify fun _ => rfl) fun v hv hpid => ?_
      obtain ⟨p, rfl⟩ := mem_modify hv hpid
      simp [callStatus]
    | segfault =>
      simp only [act, hc, ProcTable.segfault]
      refine .reap hc (by simp [callFate, hc]) (.modify fun _ => rfl) fun v hv hpid => ?_
      obtain ⟨p, rfl⟩ := mem_modify hv hpid
      simp [callStatus]
    | settle =>
      simp only [act, hc]
      rcases t.applyDefaultSignalAction_moves e me with
        ⟨hf, h⟩ | ⟨hf, t₁, h, hcode, heq⟩ | ⟨hf, i, heq⟩
      · exact .quiet (by simp [created, callFate, waits, hc, hf]) h
      · rw [heq]
        refine .reap hc (by simp [callFate, hc, hf]) h fun v hv hpid => ?_
        rw [hcode v hv hpid]
        simp [callStatus, hc]
      · rw [heq]
        exact .stop hc (by simp [callFate, hc, hf]) i
    | kill target sig =>
      exact .quiet (by simp [created, callFate, waits])
        (by simpa [act, hc] using .ret t _ _)
    | wait noHang untraced ptrOk copyOk =>
      simp only [act, hc]
      obtain ⟨t₁, htook, h⟩ := t.sysWait_steady hp hmem hr noHang untraced ptrOk copyOk
      exact .wait hc rfl htook h
    | signal sig handler addrOk =>
      exact .quiet (by simp [created, callFate, waits])
        (by simpa [act, hc] using t.steady_registerUserSignal _ _ _ _)
    | setpgid pid pgid =>
      simp only [act, hc]
      rcases t.sysSetpgid_moves me pid pgid with h | ⟨pid', pgid', hpid, hpgid, hown, hgroup, heq⟩
      · exact .quiet (by simp [created, callFate, waits]) h
      · rw [heq]
        exact .group hc rfl hpid hpgid hown hgroup
    | tcsetpgrp pgid =>
      simp only [act, hc]
      rcases t.sysTcsetpgrp_moves me pgid with h | ⟨hz, hown, heq⟩
      · exact .quiet (by simp [created, callFate, waits]) h
      · rw [heq]
        exact .terminal hc rfl hz hown
    | readTerminal =>
      exact .quiet (by simp [created, callFate, waits])
        (by simpa [act, hc] using .refl _ t)
    | block reason =>
      refine .call hc rfl (by simp [created, callFate, waits]) ?_
      simp only [act, hc]
      split_ifs with hblocks
      · exact .sleep hp hmem hr fun h => by simp [WaitReason.blocks, h] at hblocks
      · exact .refl _ t
    | deliver addrOk =>
      exact .quiet (by simp [created, callFate, waits])
        (by simpa [act, hc] using t.steady_checkAndDeliverSignals addrOk me)
    | sigreturn =>
      refine .quiet (by simp [created, callFate, waits]) ?_
      simp only [act, hc]
      exact .modify fun _ _ _ => .of_life rfl
  · refine .quiet (by simp [created, callFate, waits]) ?_
    cases ev with
    | wakeup reason =>
      simp only [act]
      split_ifs
      · exact .wakeupTasks t reason
      · exact .refl _ t
    | wake pid reason =>
      simp only [act]
      split_ifs
      · exact .wakeTask t pid reason
      · exact .refl _ t
    | key sig => exact .refl _ t
    | alarm pid => exact .refl _ t
    | reapZombies keep =>
      exact ⟨⟨rfl, rfl, rfl⟩, (Steady.refl _ t).tasks⟩

inductive SignalMoves (e : ReapEnv) (current : Option ℤ) (sig pid : ℤ) (t : ProcTable) :
    ProcTable → Prop
  | quiet {t' : ProcTable}
      (hfate : ∀ p ∈ t.target? pid, signalFate current p sig.toNat ≠ some .reaped)
    (h : Steady nobody t t') : SignalMoves e current sig pid t t'
  | reap {p : Proc} {t₁ : ProcTable} (hp : t.target? pid = some p)
    (hfate : signalFate current p sig.toNat = some .reaped) (h : Marks t t₁)
    (hcode : ∀ v ∈ t₁.tasks, v.pid = p.pid → v.exitCode = 128 + sig.toNat) :
    SignalMoves e current sig pid t (t₁.reapTask e p.pid)
  | stop {p : Proc} {t₁ : ProcTable} (hp : t.target? pid = some p)
    (hfate : signalFate current p sig.toNat = some .stopped) (h : Marks t t₁) :
    SignalMoves e current sig pid t (t₁.stopTask p.pid sig.toNat)
  | resume {p : Proc} (hp : t.target? pid = some p) (hsig : sig.toNat = sigCont) :
    SignalMoves e current sig pid t (t.continueTask p.pid)

lemma signalFate_range {current : Option ℤ} {sig : ℤ}
    (h : signalFate current p sig.toNat = some .reaped) : 0 ≤ sig ∧ sig < maxUserSignals := by
  have ht : signalTerminatesByDefault sig.toNat = true := by
    unfold signalFate at h
    split_ifs at h <;> first | assumption | cases h
  unfold signalTerminatesByDefault at ht
  rw [decide_eq_true_eq] at ht
  simp only [sigKill, sigTerm, sigPipe, sigInt, sigAlrm] at ht
  unfold maxUserSignals
  omega

lemma signalFate_cont (current : Option ℤ) (p : Proc) :
    signalFate current p sigCont = some .continued :=
  if_pos rfl

section

variable (t)

lemma sendUserSignal_moves (e : ReapEnv) (current : Option ℤ) (sig pid : ℤ) :
    SignalMoves e current sig pid t (t.sendUserSignal e current sig pid) := by
  unfold sendUserSignal
  split
  · refine .quiet (fun p _ hf => ?_) (.refl _ t)
    have := signalFate_range hf
    omega
  · rcases hp : t.target? pid with _ | p
    · exact .quiet (by simp [hp]) (.refl _ t)
    · dsimp only
      unfold signalTask
      rcases hf : signalFate current p sig.toNat with _ | f
      · refine .quiet (fun q hq => ?_) (.interrupted t _ _)
        obtain rfl := Option.some.inj (hp.symm.trans hq)
        simp [hf]
      · cases f with
        | reaped =>
          refine .reap hp hf ((Marks.markPending t p.pid sig.toNat).trans (.modify fun _ => rfl))
            fun v hv hpid => ?_
          obtain ⟨q, rfl⟩ := mem_modify hv hpid
          rfl
        | stopped => exact .stop hp hf (.markPending t p.pid sig.toNat)
        | continued =>
          refine .resume hp ?_
          unfold signalFate at hf
          split_ifs at hf with hsig
          · exact hsig
          · cases hf
          · cases hf

lemma reapTask_pids (e : ReapEnv) (pid : ℤ) : (t.reapTask e pid).pids.Sublist t.pids := by
  rcases t.reapTask_cases e pid with heq | ⟨v, _, _, _, heq⟩
  · rw [heq]
  · rw [heq, pids, (bury_rest _ v).1, ← (Steady.letGo t e).pids]
    refine (filter_sublist.map _).trans ?_
    exact exitNews_pids ▸ .refl _

lemma stopTask_pids (pid : ℤ) (sig : ℕ) : (t.stopTask pid sig).pids = t.pids := by
  rcases t.stopTask_cases pid sig with heq | ⟨v, _, _, _, heq⟩
  · rw [heq]
  · rw [heq, pids_congr passTerminal_tasks]
    exact stopNews_pids

lemma continueTask_pids (pid : ℤ) : (t.continueTask pid).pids = t.pids := by
  rcases t.continueTask_cases pid with heq | ⟨v, _, _, heq⟩
  · rw [heq]
  · rw [heq]
    exact modify_pids fun _ => rfl

lemma sendUserSignal_pids (e : ReapEnv) (current : Option ℤ) (sig pid : ℤ) :
    (t.sendUserSignal e current sig pid).pids.Sublist t.pids := by
  generalize hse : t.sendUserSignal e current sig pid = t'
  have hmo : SignalMoves e current sig pid t t' := hse ▸ t.sendUserSignal_moves e current sig pid
  cases hmo with
  | quiet _ hs => rw [hs.pids]
  | reap _ _ hm _ =>
    rw [← hm.steady.pids]
    exact reapTask_pids _ _ _
  | stop _ _ hm => rw [stopTask_pids, hm.steady.pids]
  | resume _ _ => rw [continueTask_pids]

end

lemma sendAll_pids (e : ReapEnv) (current : Option ℤ) (ss : List (ℤ × ℤ)) (t : ProcTable) :
    (t.sendAll e current ss).pids.Sublist t.pids :=
  @Lib.foldl_invariant _ _ (fun t s => t.sendUserSignal e current s.2 s.1)
    (fun u => u.pids.Sublist t.pids)
    (fun u s hu => (u.sendUserSignal_pids e current s.2 s.1).trans hu) ss t (.refl _)

lemma act_pids (t : ProcTable) (a : ProcStep) (hp : t.pids.Nodup) :
    (t.act a).pids.Sublist t.pids ∨
      ∃ x, t.created a = some x ∧ x.1 ∉ t.pids ∧ (t.act a).pids = t.pids ++ [x.1] := by
  generalize ha : t.act a = t'
  have hmo : Moves t a t' := ha ▸ t.act_moves a hp
  cases hmo with
  | steady _ _ hs => exact .inl (by rw [hs.pids])
  | wait _ _ htook hs =>
    refine .inl ?_
    rw [hs.pids]
    rcases htook with rfl | ⟨stopped, rfl⟩
    · exact .refl _
    · rw [pids_congr (takeParked_rest _ _ _).1]
  | create _ _ hfresh hs hmade =>
    refine .inr ⟨_, hmade, hfresh, ?_⟩
    rw [hs.pids, adopt_pids]
  | reap _ _ hm _ =>
    refine .inl ?_
    rw [← hm.steady.pids]
    exact reapTask_pids _ _ _
  | stop _ _ sig => exact .inl (by rw [stopTask_pids])
  | @group me _ _ pid' pgid' _ _ _ _ _ _ =>
    refine .inl ?_
    have hmd : (t.modify pid' fun p => { p with pgid := pgid' }).pids = t.pids :=
      modify_pids fun _ => rfl
    rw [(Steady.ret _ _ _).pids, hmd]
  | @terminal me _ _ _ _ _ =>
    refine .inl ?_
    have hr : (t.ret me.pid 0).pids = t.pids := (Steady.ret _ _ _).pids
    exact hr ▸ .refl _

/-- Only a step that makes a task adds a pid. -/
lemma procStep_pids (t : ProcTable) (a : ProcStep) (hp : t.pids.Nodup)
    (hmade : t.created a = none) :
    (procStep t a).pids.Sublist t.pids := by
  rcases t.act_pids a hp with h | ⟨x, hx, _⟩
  · exact (sendAll_pids _ _ _ _).trans h
  · rw [hmade] at hx
    cases hx

lemma procStep_nodup (t : ProcTable) (a : ProcStep) (hp : t.pids.Nodup) :
    (procStep t a).pids.Nodup := by
  refine List.Nodup.sublist (sendAll_pids _ _ _ _) ?_
  rcases t.act_pids a hp with h | ⟨x, _, hfresh, heq⟩
  · exact hp.sublist h
  · rw [heq, ← concat_eq_append]
    exact hp.concat hfresh

/-- No two tasks of a reachable table have one pid, however often the counter has wrapped. -/
theorem procRun_nodup (as : List ProcStep) : (procRun bootTable as).pids.Nodup :=
  Lib.foldl_invariant procStep_nodup as (by decide)

end ProcTable

end EsdumanOS
