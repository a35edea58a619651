import EsdumanOS.Process

/-!
# What the pieces of a step do

A table is `Steady` when every task keeps its pid, its parent and its group, whoever could run still
can, and the rest is as before; under `Marks` only pending signals and exit codes change.
`reap_task` and `stop_task` mark a task and tell its parent (`notify`).
-/

namespace EsdumanOS

open ProcTable List Function Lib

abbrev MaySleep := ℤ → WaitReason → ℤ → Prop

def nobody : MaySleep := fun _ _ _ => False

def callerOnly (me : ℤ) (kid : Option ℤ) : MaySleep :=
  fun pid reason child => pid = me ∧ (reason = .child → kid = some child)

def Proc.life (p : Proc) : ℤ × ℤ × ℤ × TaskState × WaitReason × ℤ :=
  (p.pid, p.parentPid, p.pgid, p.state, p.waitReason, p.execChildPid)

structure Proc.Stays (who : MaySleep) (p q : Proc) : Prop where
  pid : q.pid = p.pid
  parent : q.parentPid = p.parentPid
  pgid : q.pgid = p.pgid
  state : (q.state = p.state ∧ (q.state = .waiting →
      q.waitReason = p.waitReason ∧ q.execChildPid = p.execChildPid)) ∨
    awake p = true ∧ (q.state = .running ∨
      q.state = .waiting ∧ who q.pid q.waitReason q.execChildPid)

section Stays

variable {who : MaySleep} {p q r : Proc}

lemma Proc.Stays.of_life (h : q.life = p.life) : p.Stays who q := by
  simp only [Proc.life, Prod.mk.injEq] at h
  obtain ⟨hpid, hp, hg, hs, hw, he⟩ := h
  exact ⟨hpid, hp, hg, .inl ⟨hs, fun _ => ⟨hw, he⟩⟩⟩

lemma Proc.Stays.refl (who : MaySleep) (p : Proc) : p.Stays who p := .of_life rfl

lemma awake_of_state (h : q.state = p.state) : awake q = awake p := by
  simp [awake, h]

lemma Proc.Stays.awake (h : p.Stays who q) : ProcTable.awake q = ProcTable.awake p := by
  rcases h.state with ⟨hs, _⟩ | ⟨hp, hs | ⟨hs, _⟩⟩
  · exact awake_of_state hs
  · rw [hp]
    simp [ProcTable.awake, hs]
  · rw [hp]
    simp [ProcTable.awake, hs]

lemma Proc.Stays.stopped (h : p.Stays who q) : q.state = .stopped ↔ p.state = .stopped := by
  rcases h.state with ⟨hs, _⟩ | ⟨hp, hs⟩
  · rw [hs]
  · have hp' : p.state ≠ .stopped := by
      rintro hst
      simp [ProcTable.awake, hst] at hp
    rcases hs with hs | ⟨hs, _⟩ <;> simp [hs, hp']

lemma Proc.Stays.trans (h : p.Stays who q) (h' : q.Stays who r) : p.Stays who r := by
  refine ⟨h'.pid.trans h.pid, h'.parent.trans h.parent, h'.pgid.trans h.pgid, ?_⟩
  rcases h'.state with ⟨hs, hw⟩ | ⟨ha, hs⟩
  · rcases h.state with ⟨hs1, hw1⟩ | ⟨ha, hru | ⟨hwa, hm⟩⟩
    · refine .inl ⟨hs.trans hs1, fun hr => ?_⟩
      obtain ⟨hre, hc⟩ := hw1 (hs ▸ hr)
      exact ⟨(hw hr).1.trans hre, (hw hr).2.trans hc⟩
    · exact .inr ⟨ha, .inl (hs.trans hru)⟩
    · obtain ⟨hre, hc⟩ := hw (hs.trans hwa)
      refine .inr ⟨ha, .inr ⟨hs.trans hwa, ?_⟩⟩
      rw [h'.pid, hre, hc]
      exact hm
  · exact .inr ⟨h.awake ▸ ha, hs⟩

lemma Proc.Stays.woken (hpid : q.pid = p.pid) (hpa : q.parentPid = p.parentPid)
    (hg : q.pgid = p.pgid) (hp : p.state = .waiting) (hs : q.state = .running) : p.Stays who q :=
  ⟨hpid, hpa, hg, .inr ⟨by simp [ProcTable.awake, hp], .inl hs⟩⟩

end Stays

namespace ProcTable

structure SameRest (t t' : ProcTable) : Prop where
  terminal : t'.foregroundPgid = t.foregroundPgid
  slots : t'.slots = t.slots
  slotSeq : t'.slotSeq = t.slotSeq

structure Steady (who : MaySleep) (t t' : ProcTable) : Prop extends SameRest t t' where
  tasks : Forall₂ (Proc.Stays who) t.tasks t'.tasks

structure Marks (t t' : ProcTable) : Prop extends SameRest t t' where
  tasks : Forall₂ (fun p q => q = { p with pending := q.pending, exitCode := q.exitCode })
    t.tasks t'.tasks

variable {t t' t1 : ProcTable} {p q v me : Proc} {pid : ℤ} {f : Proc → Proc} {who : MaySleep}

lemma SameRest.withTasks (t : ProcTable) (l : List Proc) : SameRest t { t with tasks := l } :=
  ⟨rfl, rfl, rfl⟩

lemma SameRest.trans (h : SameRest t t1) (h' : SameRest t1 t') : SameRest t t' :=
  ⟨h'.terminal.trans h.terminal, h'.slots.trans h.slots, h'.slotSeq.trans h.slotSeq⟩

lemma mem_of_task? (h : t.task? pid = some p) : p ∈ t.tasks ∧ p.pid = pid :=
  ⟨mem_of_find?_eq_some h, by simpa using find?_some h⟩

lemma mem_of_target? (h : t.target? pid = some p) : p ∈ t.tasks :=
  mem_of_find?_eq_some h

lemma caller_running {current : Option ℤ} (h : t.caller current = some me) :
    me ∈ t.tasks ∧ me.state = .running ∧ current = some me.pid := by
  rcases current with _ | pid
  · simp [caller] at h
  · obtain ⟨hf, hr⟩ := Option.filter_eq_some_iff.1 h
    obtain ⟨hmem, hpid⟩ := mem_of_task? hf
    exact ⟨hmem, by simpa using hr, by rw [hpid]⟩

lemma mem_of_caller {current : Option ℤ} (h : t.caller current = some p) : p ∈ t.tasks :=
  (caller_running h).1

lemma pids_congr (h : t'.tasks = t.tasks) : t'.pids = t.pids := congrArg (map Proc.pid) h

lemma eq_of_pid (h : t.pids.Nodup) (hp : p ∈ t.tasks) (hq : q ∈ t.tasks)
    (hpid : p.pid = q.pid) : p = q :=
  inj_on_of_nodup_map h hp hq hpid

lemma modify_pids (h : ∀ p, (f p).pid = p.pid) :
    (t.modify pid f).pids = t.pids := by
  unfold pids modify
  rw [map_map]
  refine map_congr_left fun p _ => ?_
  rw [comp_apply]
  split_ifs
  · exact h p
  · rfl

lemma mem_modify (hq : q ∈ (t.modify pid f).tasks) (hpid : q.pid = pid) :
    ∃ p, q = f p := by
  obtain ⟨p, _, rfl⟩ := mem_map.1 hq
  split_ifs at hpid ⊢ with h
  · exact ⟨p, rfl⟩
  · exact absurd hpid h

/-- Before and after a wrap, the pid is one that no task and no zombie holds. -/
lemma allocatePid_fresh {held : List ℤ} : ∀ {fuel : ℕ} {next : ℤ} {r : ℤ × ℤ},
    allocatePid held fuel next = some r → 0 ≤ r.1 ∧ r.1 ∉ held
  | 0, _, _, h => by simp [allocatePid] at h
  | fuel + 1, next, r, h => by
    unfold allocatePid at h
    dsimp only at h
    split_ifs at h with _ hi hi
    · exact allocatePid_fresh h
    · cases h
      exact ⟨by decide, hi⟩
    · exact allocatePid_fresh h
    · cases h
      exact ⟨by omega, hi⟩

lemma Steady.refl (who : MaySleep) (t : ProcTable) : Steady who t t :=
  ⟨.withTasks t _, related_refl (Proc.Stays.refl who) t.tasks⟩

lemma Steady.trans (h : Steady who t t1) (h' : Steady who t1 t') : Steady who t t' :=
  ⟨h.toSameRest.trans h'.toSameRest,
    related_trans (fun _ _ _ ha hb => ha.trans hb) h.tasks h'.tasks⟩

lemma Steady.mono (h : Steady nobody t t') : Steady who t t' := by
  refine ⟨h.toSameRest, h.tasks.imp fun p q hs => ⟨hs.pid, hs.parent, hs.pgid, ?_⟩⟩
  rcases hs.state with hsame | ⟨ha, hr | ⟨_, hn⟩⟩
  · exact .inl hsame
  · exact .inr ⟨ha, .inl hr⟩
  · exact absurd hn id

lemma Steady.mem (h : Steady who t t') (hp : p ∈ t.tasks) : ∃ q ∈ t'.tasks, p.Stays who q :=
  related_left h.tasks hp

lemma Steady.mem_of (h : Steady who t t') (hq : q ∈ t'.tasks) : ∃ p ∈ t.tasks, p.Stays who q :=
  related_right h.tasks hq

lemma Steady.pids (h : Steady who t t') : t'.pids = t.pids :=
  related_keys h.tasks fun _ _ hs => hs.pid

lemma Steady.modify (h : ∀ p ∈ t.tasks, p.pid = pid → p.Stays who (f p)) :
    Steady who t (t.modify pid f) := by
  refine ⟨.withTasks t _, ?_⟩
  unfold ProcTable.modify
  rw [forall₂_map_right_iff, forall₂_same]
  intro p hp
  split_ifs with hpid
  · exact h p hp hpid
  · exact .refl who p

lemma Steady.ret (t : ProcTable) (pid value : ℤ) :
    Steady nobody t (t.ret pid value) :=
  .modify fun _ _ _ => .of_life rfl

lemma Steady.sleep {kid : Option ℤ} {reason : WaitReason} (hpi : t.pids.Nodup)
    (hme : me ∈ t.tasks) (hr : me.state = .running)
    (hk : reason = .child → kid = some me.execChildPid) :
    Steady (callerOnly me.pid kid) t (t.sleepCurrentTask me.pid reason) := by
  refine .modify fun p hp hpid => ⟨rfl, rfl, rfl, .inr ?_⟩
  obtain rfl := eq_of_pid hpi hp hme hpid
  exact ⟨by simp [awake, hr], .inr ⟨rfl, rfl, hk⟩⟩

lemma stays_wake (hp : p.state = .waiting) : p.Stays who (wake p) := .woken rfl rfl rfl hp rfl

section

variable (t)

lemma Steady.wakeTask (pid : ℤ) (reason : WaitReason) :
    Steady nobody t (t.wakeTask pid reason) := by
  refine .modify fun p _ _ => ?_
  split_ifs with hw
  · exact stays_wake hw.1
  · exact .refl nobody p

lemma Steady.wakeupTasks (reason : WaitReason) : Steady nobody t (t.wakeupTasks reason) := by
  refine ⟨.withTasks t _, related_map (fun p => ?_) t.tasks⟩
  split_ifs with hw
  · exact stays_wake hw.1
  · exact .refl nobody p

lemma Steady.letGo (e : ReapEnv) : Steady nobody t (t.letGo e) := by
  unfold ProcTable.letGo
  rcases e.mutexWaiter with _ | pid
  · dsimp only
    split_ifs
    · exact .wakeupTasks _ _
    · exact .refl nobody t
  · have hm := Steady.wakeTask t pid .mutex
    dsimp only
    split_ifs
    · exact hm.trans (.wakeupTasks _ _)
    · exact hm

lemma Steady.tellParent (v : Proc) (value : ℤ) : Steady nobody t (t.tellParent v value).2 := by
  refine ⟨.withTasks t _, related_updateFirst (.refl nobody) (fun p hp => ?_) t.tasks⟩
  simp only [awaits, decide_eq_true_eq] at hp
  unfold released
  split_ifs
  · exact stays_wake hp.2.1
  · exact .woken rfl rfl rfl hp.2.1 rfl

lemma Steady.interrupted (pid : ℤ) (sig : ℕ) :
    Steady nobody t (t.modify pid (interrupted sig)) := by
  refine .modify fun p _ _ => ?_
  unfold ProcTable.interrupted
  dsimp only
  split_ifs with hw
  · exact .woken rfl rfl rfl hw.1 rfl
  · exact .of_life rfl

lemma Steady.report (me : Proc) (copyOk : Bool)
    (child status : ℤ) : Steady nobody t (t.report me copyOk child status) := by
  unfold ProcTable.report
  split_ifs
  · exact .modify fun _ _ _ => .of_life rfl
  · exact .ret t _ _

end

lemma Marks.steady (h : Marks t t') : Steady nobody t t' := by
  refine ⟨h.toSameRest, h.tasks.imp fun p q hq => ?_⟩
  rw [hq]
  exact .of_life rfl

lemma Marks.refl (t : ProcTable) : Marks t t := by
  refine ⟨.withTasks t _, related_refl (fun p => ?_) _⟩
  rfl

lemma Marks.modify
    (h : ∀ p, f p = { p with pending := (f p).pending, exitCode := (f p).exitCode }) :
    Marks t (t.modify pid f) := by
  refine ⟨.withTasks t _, related_map (fun p => ?_) t.tasks⟩
  split_ifs
  · exact h p
  · rfl

lemma Marks.trans (h : Marks t t1) (h' : Marks t1 t') : Marks t t' := by
  refine ⟨h.toSameRest.trans h'.toSameRest,
    related_trans (fun p q r hp hq => ?_) h.tasks h'.tasks⟩
  rw [hq, hp]

lemma Marks.markPending (t : ProcTable) (pid : ℤ) (sig : ℕ) : Marks t (t.markPending pid sig) :=
  .modify fun _ => rfl

/-- The task that is marked is found under its pid, with its parent and its state. -/
lemma Marks.task (hm : Marks t t1) (hpi : t.pids.Nodup) (hp : p ∈ t.tasks) :
    ∃ v, t1.task? p.pid = some v ∧ v ∈ t1.tasks ∧ v.pid = p.pid ∧ v.parentPid = p.parentPid ∧
      v.state = p.state := by
  obtain ⟨w, hw, hwp⟩ := related_left hm.tasks hp
  have hwi : w.pid = p.pid := by rw [hwp]
  have hs : (t1.task? p.pid).isSome := by
    unfold task?
    rw [find?_isSome]
    exact ⟨w, hw, by simpa using hwi⟩
  obtain ⟨v, hv⟩ := Option.isSome_iff_exists.1 hs
  obtain ⟨hmem, hpid⟩ := mem_of_task? hv
  obtain ⟨q, hq, hqv⟩ := related_right hm.tasks hmem
  have hqp : q.pid = p.pid := by rw [← hpid, hqv]
  obtain rfl := eq_of_pid hpi hq hp hqp
  exact ⟨v, hv, hmem, hpid, by rw [hqv], by rw [hqv]⟩

section Slots

variable {parent child code : ℤ} {stopped : Bool}

lemma dropSlots_slot {test : ExitSlot → Bool} {i : ℕ}
    (hi : ((t.dropSlots test).slots i).used = true) :
    (t.dropSlots test).slots i = t.slots i ∧ (t.slots i).used = true ∧
      test (t.slots i) = false := by
  unfold dropSlots at hi ⊢
  dsimp only at hi ⊢
  by_cases hd : ((t.slots i).used && test (t.slots i)) = true
  · rw [if_pos hd] at hi
    simp at hi
  · rw [if_neg hd] at hi ⊢
    exact ⟨rfl, hi, by simpa [hi] using hd⟩

lemma drop_congr (hs : t'.slots = t.slots) (test : ExitSlot → Bool) :
    (t'.dropSlots test).slots = (t.dropSlots test).slots := by
  simp [ProcTable.dropSlots, hs]

lemma takeParked_rest (t : ProcTable) (stopped : Bool) (parent : ℤ) :
    (t.takeParked stopped parent).2.tasks = t.tasks ∧
      (t.takeParked stopped parent).2.foregroundPgid = t.foregroundPgid ∧
      (t.takeParked stopped parent).2.slotSeq = t.slotSeq := by
  unfold takeParked
  split <;> exact ⟨rfl, rfl, rfl⟩

lemma takeParked_slot (t : ProcTable) (stopped : Bool) (parent : ℤ) (i : ℕ) :
    (t.takeParked stopped parent).2.slots i = t.slots i ∨
      ((t.takeParked stopped parent).2.slots i).used = false ∧ (t.slots i).stopped = stopped ∧
        (t.slots i).parentPid = parent := by
  unfold takeParked
  split
  · exact .inl rfl
  · rename_i j hj
    by_cases hi : i = j
    · subst hi
      have ht := (bestIdx_some hj).2
      simp only [Bool.and_eq_true, decide_eq_true_eq, beq_iff_eq] at ht
      exact .inr ⟨by simp, ht.1.1.2, ht.1.2⟩
    · exact .inl (update_of_ne hi _ _)

lemma takeParked_kept {i : ℕ} (hu : ((t.takeParked stopped parent).2.slots i).used = true) :
    (t.takeParked stopped parent).2.slots i = t.slots i := by
  rcases takeParked_slot t stopped parent i with heq | ⟨hf, _⟩
  · exact heq
  · rw [hf] at hu
    cases hu

end Slots

section Notify

/-- `f` marks a task, the parent that waits for it is woken, and a notice is parked, when `parks`
says so or no parent waits. -/
def notify (t : ProcTable) (f : Proc → Proc) (v : Proc) (value : ℤ) (parks : Proc → Bool) (code : ℤ)
    (stopped : Bool) : ProcTable :=
  let r := (t.modify v.pid f).tellParent v value
  if r.1.elim (decide (0 < v.parentPid)) parks then
    (r.2.dropParkedStop v.pid).parkChildNews v.parentPid v.pid code stopped
  else r.2

def exitNews (t : ProcTable) (v : Proc) : ProcTable :=
  t.notify markDead v v.exitCode (fun p => decide (p.waitReason = .pid)) v.exitCode false

def stopNews (t : ProcTable) (v : Proc) (sig : ℕ) : ProcTable :=
  t.notify (markStopped sig) v (wstatusStopped + sig) (fun _ => true) sig true

def wokenParent (t : ProcTable) (f : Proc → Proc) (v : Proc) : Option Proc :=
  (t.modify v.pid f).tasks.find? (awaits v)

variable {value code : ℤ} {parks : Proc → Bool} {stopped : Bool}

lemma tellParent_some (h : (t.tellParent v value).1 = some p) :
    p ∈ t.tasks ∧ p.pid = v.parentPid := by
  refine ⟨mem_of_find?_eq_some h, ?_⟩
  have := find?_some h
  simp only [awaits, decide_eq_true_eq] at this
  exact this.1

/-- Nobody is left waiting for a task whose parent was told. -/
lemma awaits_tellParent (h : t.pids.Nodup) (hq : q ∈ (t.tellParent v value).2.tasks) :
    awaits v q = false := by
  by_contra hne
  have hh : awaits v q = true := by simpa using hne
  obtain ⟨b, rfl⟩ := hit_of_mem_updateFirst (fun (a b : Proc) ha hb => by
    simp only [awaits, decide_eq_true_eq] at ha hb
    exact ha.1.trans hb.1.symm) h hq hh
  unfold released at hh
  split_ifs at hh <;> simp [awaits, wake] at hh

lemma notify_rest : (t.notify f v value parks code stopped).tasks =
      ((t.modify v.pid f).tellParent v value).2.tasks ∧
    (t.notify f v value parks code stopped).foregroundPgid = t.foregroundPgid := by
  unfold notify
  dsimp only
  split_ifs <;> exact ⟨rfl, rfl⟩

lemma notify_tasks : Forall₂ (fun p q => (if p.pid = v.pid then f p else p).Stays nobody q)
    t.tasks (t.notify f v value parks code stopped).tasks := by
  rw [notify_rest.1]
  exact forall₂_map_left_iff.1 (Steady.tellParent (t.modify v.pid f) v value).tasks

lemma notify_pids (hf : ∀ p, (f p).pid = p.pid) :
    (t.notify f v value parks code stopped).pids = t.pids := by
  refine related_keys notify_tasks fun p q hs => ?_
  rw [hs.pid]
  split_ifs
  · exact hf p
  · rfl

lemma exitNews_pids : (t.exitNews v).pids = t.pids :=
  notify_pids fun _ => rfl

lemma stopNews_pids {sig : ℕ} : (t.stopNews v sig).pids = t.pids :=
  notify_pids fun _ => rfl

lemma awaits_notify (hf : ∀ p, (f p).pid = p.pid) (h : t.pids.Nodup)
    (hq : q ∈ (t.notify f v value parks code stopped).tasks) : awaits v q = false := by
  rw [notify_rest.1] at hq
  exact awaits_tellParent (by rw [modify_pids hf]; exact h) hq

section

variable (t)

lemma exitNews_eq (v : Proc) : t.exitNews v =
    let r := (t.modify v.pid markDead).tellParent v v.exitCode
    let parked := r.2.parkExitStatus v.parentPid v.pid v.exitCode
    match r.1 with
    | some p => if p.waitReason = .pid then parked else r.2
    | none => if 0 < v.parentPid then parked else r.2 := by
  unfold exitNews notify
  dsimp only
  cases ((t.modify v.pid markDead).tellParent v v.exitCode).1 <;>
    simp only [Option.elim, decide_eq_true_eq] <;> rfl

lemma bury_eq (v : Proc) : t.bury v =
    let t1 := ((t.exitNews v).dropParkedStatuses v.pid).passTerminal v (t.wokenParent markDead v)
    { t1 with
      tasks := t1.tasks.filter fun p => decide (p.pid ≠ v.pid)
      zombies := v.pid :: t1.zombies } := by
  rw [exitNews_eq]
  rfl

lemma stopNews_eq (v : Proc) (sig : ℕ) : t.stopNews v sig =
    let r := (t.modify v.pid (markStopped sig)).tellParent v (wstatusStopped + sig)
    match r.1 with
    | some p => r.2.parkStopNotice p.pid v.pid sig
    | none => if 0 < v.parentPid then r.2.parkStopNotice v.parentPid v.pid sig else r.2 := by
  unfold stopNews notify
  dsimp only
  rcases hr : ((t.modify v.pid (markStopped sig)).tellParent v (wstatusStopped + sig)).1 with _ | p
  · simp only [Option.elim, decide_eq_true_eq]
    rfl
  · simp [(tellParent_some hr).2, parkStopNotice]

lemma stopTask_eq (pid : ℤ) (sig : ℕ) : t.stopTask pid sig = match t.task? pid with
    | none => t
    | some v =>
      if v.state = .empty ∨ v.state = .dead ∨ v.state = .stopped then t
      else if v.pid = idlePid then t
      else (t.stopNews v sig).passTerminal v (t.wokenParent (markStopped sig) v) := by
  simp only [stopNews_eq]
  rfl

lemma reapTask_cases (e : ReapEnv) (pid : ℤ) : t.reapTask e pid = t ∨
    ∃ v, t.task? pid = some v ∧ v.state ≠ .dead ∧ v.pid ≠ idlePid ∧
      t.reapTask e pid = (t.letGo e).bury v := by
  unfold reapTask
  rcases t.task? pid with _ | v
  · exact .inl rfl
  · dsimp only
    split_ifs with hv
    · exact .inl rfl
    · exact .inr ⟨v, rfl, (not_or.1 hv).1, (not_or.1 hv).2, rfl⟩

lemma stopTask_cases (pid : ℤ) (sig : ℕ) : t.stopTask pid sig = t ∨
    ∃ v, t.task? pid = some v ∧ v.state ≠ .stopped ∧ v.pid ≠ idlePid ∧ t.stopTask pid sig =
      (t.stopNews v sig).passTerminal v (t.wokenParent (markStopped sig) v) := by
  rw [stopTask_eq]
  rcases t.task? pid with _ | v
  · exact .inl rfl
  · dsimp only
    split_ifs with hv hi
    · exact .inl rfl
    · exact .inl rfl
    · exact .inr ⟨v, rfl, (not_or.1 (not_or.1 hv).2).2, hi, rfl⟩

lemma continueTask_cases (pid : ℤ) : t.continueTask pid = t ∨
    ∃ v, t.task? pid = some v ∧ v.state = .stopped ∧
      t.continueTask pid = (t.dropParkedStop pid).modify pid continued := by
  unfold continueTask
  rcases t.task? pid with _ | v
  · exact .inl rfl
  · dsimp only
    split_ifs with hv
    · exact .inl rfl
    · exact .inr ⟨v, rfl, not_not.1 hv, rfl⟩

end

lemma continueTask_kept {i : ℕ} (hu : ((t.continueTask pid).slots i).used = true) :
    (t.continueTask pid).slots i = t.slots i := by
  rcases t.continueTask_cases pid with heq | ⟨v, _, _, heq⟩
  · rw [heq]
  · rw [heq] at hu ⊢
    have hd : ((t.dropParkedStop pid).slots i).used = true := hu
    exact (dropSlots_slot hd).1

lemma passTerminal_rest (t : ProcTable) (v : Proc) (woken : Option Proc) :
    (t.passTerminal v woken).tasks = t.tasks ∧ (t.passTerminal v woken).slots = t.slots ∧
      (t.passTerminal v woken).slotSeq = t.slotSeq := by
  unfold passTerminal handTerminalToAnyLiveTask
  split_ifs
  · cases woken <;> exact ⟨rfl, rfl, rfl⟩
  · exact ⟨rfl, rfl, rfl⟩

@[simp] lemma passTerminal_tasks {woken : Option Proc} :
    (t.passTerminal v woken).tasks = t.tasks := (t.passTerminal_rest v woken).1

lemma bury_rest (t : ProcTable) (v : Proc) :
    (t.bury v).tasks = (t.exitNews v).tasks.filter (fun p => decide (p.pid ≠ v.pid)) ∧
      (t.bury v).slots = ((t.exitNews v).dropParkedStatuses v.pid).slots ∧
      (t.bury v).slotSeq = (t.exitNews v).slotSeq := by
  obtain ⟨htasks, hs, hse⟩ :=
    ((t.exitNews v).dropParkedStatuses v.pid).passTerminal_rest v (t.wokenParent markDead v)
  rw [bury_eq]
  dsimp only
  rw [htasks, hs, hse]
  exact ⟨rfl, rfl, rfl⟩

end Notify

end ProcTable

def Noted (p : Proc) (t t' : ProcTable) (i : ℕ) : Prop :=
  t'.slotSeq ≠ t.slotSeq ∧ (t.dropParkedStop p.pid).newsSlot = some i

instance (p : Proc) (t t' : ProcTable) (i : ℕ) : Decidable (Noted p t t' i) :=
  inferInstanceAs (Decidable (_ ∧ _))

/-- The notices in use are old, but for one about `p`, whose parent then has a pid or is a task. -/
structure Parks (p : Proc) (t t' : ProcTable) : Prop where
  old : ∀ i, (t'.slots i).used = true → ¬ Noted p t t' i → t'.slots i = t.slots i
  new : ∀ i, (t'.slots i).used = true → Noted p t t' i →
    (t'.slots i).childPid = p.pid ∧ (t'.slots i).parentPid = p.parentPid
  told : t'.slotSeq ≠ t.slotSeq → 0 < p.parentPid ∨ p.parentPid ∈ t.pids

namespace Parks

variable {t t' t1 u : ProcTable} {p v : Proc} {e : ReapEnv}

lemma of_old (hs : t'.slotSeq = t.slotSeq)
    (h : ∀ i, (t'.slots i).used = true → t'.slots i = t.slots i) : Parks p t t' :=
  ⟨fun i hu _ => h i hu, fun _ _ hn => absurd hs hn.1, fun hne => absurd hs hne⟩

lemma of_eq (h : Parks p t t1) (hs : t'.slots = t1.slots) (hse : t'.slotSeq = t1.slotSeq) :
    Parks p t t' := by
  obtain ⟨ho, hn, ht⟩ := h
  unfold Noted at ho hn
  refine ⟨?_, ?_, ?_⟩
  · unfold Noted
    rw [hs, hse]
    exact ho
  · unfold Noted
    rw [hs, hse]
    exact hn
  · rw [hse]
    exact ht

lemma drop (h : Parks p t t') (test : ExitSlot → Bool) : Parks p t (t'.dropSlots test) := by
  refine ⟨fun i hu hn => ?_, fun i hu hn => ?_, h.told⟩
  · obtain ⟨heq, hu', _⟩ := dropSlots_slot hu
    rw [heq]
    exact h.old i hu' hn
  · obtain ⟨heq, hu', _⟩ := dropSlots_slot hu
    rw [heq]
    exact h.new i hu' hn

lemma park (hs : u.slots = t.slots) (hse : u.slotSeq = t.slotSeq)
    (ht : 0 < p.parentPid ∨ p.parentPid ∈ t.pids) (code : ℤ) (stopped : Bool) :
    Parks p t ((u.dropParkedStop p.pid).parkChildNews p.parentPid p.pid code stopped) := by
  have hd : (u.dropParkedStop p.pid).slots = (t.dropParkedStop p.pid).slots := drop_congr hs _
  have hslot : (u.dropParkedStop p.pid).newsSlot = (t.dropParkedStop p.pid).newsSlot := by
    unfold newsSlot
    rw [hd]
  have hno : ∀ i, Noted p t
      ((u.dropParkedStop p.pid).parkChildNews p.parentPid p.pid code stopped) i ↔
        (u.dropParkedStop p.pid).newsSlot = some i := by
    intro i
    rw [hslot]
    refine and_iff_right ?_
    rw [← hse]
    change u32 (u.slotSeq + 1) ≠ u.slotSeq
    unfold u32
    omega
  have hne : ∀ i, (u.dropParkedStop p.pid).newsSlot ≠ some i →
      ((u.dropParkedStop p.pid).parkChildNews p.parentPid p.pid code stopped).slots i =
        (t.dropParkedStop p.pid).slots i := by
    intro i hi
    unfold parkChildNews
    rw [← hd]
    rcases hj : (u.dropParkedStop p.pid).newsSlot with _ | j
    · rfl
    · refine update_of_ne ?_ _ _
      rintro rfl
      exact hi hj
  refine ⟨fun i hu hn => ?_, fun i hu hn => ?_, fun _ => ht⟩
  · rw [hno] at hn
    rw [hne i hn] at hu ⊢
    exact (dropSlots_slot hu).1
  · rw [hno] at hn
    simp [parkChildNews, hn]

/-- Telling the parent parks at most one notice, about the task itself. -/
lemma notify {f : Proc → Proc} {value code : ℤ} {parks : Proc → Bool} {stopped : Bool}
    (h : Steady nobody t u) (hf : ∀ p, (f p).pid = p.pid) (hpid : v.pid = p.pid)
    (hpa : v.parentPid = p.parentPid) : Parks p t (u.notify f v value parks code stopped) := by
  have ht : ∀ q, ((u.modify v.pid f).tellParent v value).1 = some q →
      p.parentPid ∈ t.pids := by
    intro q hq
    obtain ⟨hmem, hqp⟩ := tellParent_some hq
    rw [← hpa, ← hqp, ← h.pids, ← modify_pids hf]
    exact mem_map_of_mem hmem
  unfold ProcTable.notify
  dsimp only
  rw [hpa, hpid] at *
  split_ifs with hp
  · refine @park t ((u.modify p.pid f).tellParent v value).2 p h.slots h.slotSeq ?_ code stopped
    rcases hr : ((u.modify p.pid f).tellParent v value).1 with _ | q
    · rw [hr] at hp
      exact .inl (by simpa using hp)
    · exact .inr (ht q hr)
  · exact of_old h.slotSeq fun i _ => congrFun h.slots i

lemma reap (hpi : t.pids.Nodup) (hp : p ∈ t.tasks) (hm : Marks t t1) :
    Parks p t (t1.reapTask e p.pid) := by
  obtain ⟨v, hv, _, hpid, hpa, _⟩ := hm.task hpi hp
  rcases t1.reapTask_cases e p.pid with heq | ⟨w, hw, _, _, heq⟩
  · rw [heq]
    exact of_old hm.slotSeq fun i _ => congrFun hm.slots i
  · obtain rfl := Option.some.inj (hv.symm.trans hw)
    obtain ⟨_, hs, hse⟩ := (t1.letGo e).bury_rest v
    rw [heq]
    have hn : Parks p t ((t1.letGo e).exitNews v) :=
      notify (hm.steady.trans (.letGo t1 e)) (fun _ => rfl) hpid hpa
    exact (hn.drop _).of_eq hs hse

lemma stop (hpi : t.pids.Nodup) (hp : p ∈ t.tasks) (hm : Marks t t1) {sig : ℕ} :
    Parks p t (t1.stopTask p.pid sig) := by
  obtain ⟨v, hv, _, hpid, hpa, _⟩ := hm.task hpi hp
  rcases t1.stopTask_cases p.pid sig with heq | ⟨w, hw, _, _, heq⟩
  · rw [heq]
    exact of_old hm.slotSeq fun i _ => congrFun hm.slots i
  · obtain rfl := Option.some.inj (hv.symm.trans hw)
    obtain ⟨_, hs, hse⟩ :=
      (t1.stopNews v sig).passTerminal_rest v (t1.wokenParent (markStopped sig) v)
    rw [heq]
    have hn : Parks p t (t1.stopNews v sig) := notify hm.steady (fun _ => rfl) hpid hpa
    exact hn.of_eq hs hse

end Parks

end EsdumanOS
