import EsdumanOS.Proofs.Moves

/-!
# Who has the terminal

`reap_task` and `stop_task` pass the terminal on when its group has nobody left to use it.
`sys_tcsetpgrp` looks only for a member, which may be stopped, and `sys_setpgid` not at all. Apart
from these two it belongs to a group that can use it.
-/

namespace EsdumanOS

open ProcTable List Lib

variable {t t' : ProcTable} {p q victim me : Proc} {pid : ℤ} {e : ReapEnv} {a : ProcStep}
  {who : MaySleep} {f : Proc → Proc}

/-- The terminal is owned, the idle task always runs, and the other tasks are in a group. -/
structure TerminalInv (t : ProcTable) : Prop where
  pids : t.pids.Nodup
  idle : ∀ p ∈ t.tasks, p.pid = idlePid → p.state = .running
  groups : ∀ p ∈ t.tasks, p.pid ≠ idlePid → p.pgid ≠ 0
  owned : TerminalOwned t

namespace TerminalInv

lemma awake_of_running (h : p.state = .running) : awake p = true := by
  simp [awake, h]

section

variable (h : TerminalInv t)
include h

lemma foreground (hp : p ∈ t.tasks) (hi : p.pid ≠ idlePid)
    (ha : awake p = true) : t.foregroundPgid ≠ 0 := by
  intro hz
  rw [h.owned.2 hz p hp hi (h.groups p hp hi)] at ha
  cases ha

lemma owner (hf : t.foregroundPgid ≠ 0) :
    ∃ p ∈ t.tasks, p.pgid = t.foregroundPgid ∧ awake p = true :=
  h.owned.1.resolve_left hf

lemma steady (hs : Steady who t t')
    (hwho : ∀ reason child, ¬ who idlePid reason child) : TerminalInv t' := by
  refine ⟨hs.pids ▸ h.pids, fun q hq hi => ?_, fun q hq hi => ?_, ?_, fun hz q hq hi hg => ?_⟩
  · obtain ⟨p, hp, hpq⟩ := hs.mem_of hq
    rcases hpq.state with ⟨heq, _⟩ | ⟨_, hr | ⟨_, hme⟩⟩
    · rw [heq]
      exact h.idle p hp (hpq.pid ▸ hi)
    · exact hr
    · exact absurd (hi ▸ hme) (hwho _ _)
  · obtain ⟨p, hp, hpq⟩ := hs.mem_of hq
    rw [hpq.pgid]
    exact h.groups p hp (hpq.pid ▸ hi)
  · rw [hs.terminal]
    rcases h.owned.1 with hz | ⟨p, hp, hg, ha⟩
    · exact .inl hz
    · obtain ⟨q, hq, hpq⟩ := hs.mem hp
      exact .inr ⟨q, hq, hpq.pgid.trans hg, hpq.awake.trans ha⟩
  · obtain ⟨p, hp, hpq⟩ := hs.mem_of hq
    rw [hpq.awake]
    exact h.owned.2 (hs.terminal ▸ hz) p hp (hpq.pid ▸ hi) (hpq.pgid ▸ hg)

lemma quiet (hs : Steady nobody t t') : TerminalInv t' := h.steady hs fun _ _ => id

lemma of_eq (htasks : t'.tasks = t.tasks) (hf : t'.foregroundPgid = t.foregroundPgid) :
    TerminalInv t' := by
  refine ⟨pids_congr htasks ▸ h.pids, htasks ▸ h.idle, htasks ▸ h.groups, ?_⟩
  unfold TerminalOwned
  rw [htasks, hf]
  exact h.owned

lemma adopt (hme : me ∈ t.tasks) (hr : me.state = .running) (hi : me.pid ≠ idlePid) {next : ℤ}
    (hfresh : pid ∉ t.pids) : TerminalInv (t.adopt pid next me) := by
  have hf := h.foreground hme hi (awake_of_running hr)
  refine ⟨t.adopt_nodup h.pids hfresh, fun q hq hq0 => ?_, fun q hq hq0 => ?_, .inr ?_,
    fun hz => absurd hz hf⟩
  · rcases t.mem_adopt hq with hq | rfl
    · exact h.idle q hq hq0
    · rfl
  · rcases t.mem_adopt hq with hq | rfl
    · exact h.groups q hq hq0
    · simp [newProc, h.groups me hme hi]
  · obtain ⟨p, hp, ho⟩ := h.owner hf
    exact ⟨p, mem_append_left _ hp, ho⟩

end

lemma passTerminal_owned {woken : Option Proc}
    (hv : ∀ p ∈ t.tasks, p.pid = victim.pid → awake p = false)
    (hk : victim.pgid ≠ t.foregroundPgid →
      t.foregroundPgid = 0 ∨ ∃ p ∈ t.tasks, p.pgid = t.foregroundPgid ∧ awake p = true)
    (hfr : t.foregroundPgid = 0 →
      ∀ p ∈ t.tasks, p.pid ≠ idlePid → p.pgid ≠ 0 → awake p = false)
    (hw : ∀ p ∈ woken, p.pgid ≠ 0 ∧ ∃ q ∈ t.tasks, q.pgid = p.pgid ∧ awake q = true) :
    TerminalOwned (t.passTerminal victim woken) := by
  unfold passTerminal
  split_ifs with hpa
  · rcases woken with _ | p
    · -- the first task that could use the terminal gets its group
      unfold handTerminalToAnyLiveTask
      rcases hf : t.tasks.find? _ with _ | q
      · refine ⟨.inl rfl, fun _ p hp hi hg => ?_⟩
        by_cases hpv : p.pid = victim.pid
        · exact hv p hp hpv
        · simpa [hpv, hi, hg] using find?_eq_none.1 hf p hp
      · have ht := find?_some hf
        simp only [Bool.and_eq_true, decide_eq_true_eq] at ht
        exact ⟨.inr ⟨q, mem_of_find?_eq_some hf, rfl, ht.2⟩, fun hz => absurd hz ht.1.2.2⟩
    · obtain ⟨hz, hq⟩ := hw p rfl
      exact ⟨.inr hq, fun h => absurd h hz⟩
  · refine ⟨?_, hfr⟩
    by_cases hg : victim.pgid = t.foregroundPgid
    · have hl : t.groupHasALiveMember t.foregroundPgid victim.pid = true := by
        simpa [hg] using hpa
      simp only [groupHasALiveMember, Bool.and_eq_true, any_eq_true, decide_eq_true_eq] at hl
      obtain ⟨_, p, hp, ⟨_, hpg⟩, ha⟩ := hl
      exact .inr ⟨p, hp, hpg, ha⟩
    · exact hk hg

section

variable (h : TerminalInv t)
include h

/-- A task that falls silent passes the terminal on. -/
lemma silence (hmem : ∃ v ∈ t.tasks, v.pid = victim.pid ∧ v.pgid = victim.pgid)
    (hi : victim.pid ≠ idlePid)
    (hf : ∀ p, (f p).pid = p.pid ∧ (f p).pgid = p.pgid ∧ awake (f p) = false) {value code : ℤ}
    {parks : Proc → Bool} {stopped : Bool}
    (htasks : t'.tasks = (t.notify f victim value parks code stopped).tasks)
    (hfg : t'.foregroundPgid = t.foregroundPgid) :
    TerminalInv (t'.passTerminal victim (t.wokenParent f victim)) ∧
      ∀ p ∈ t'.tasks, p.pid = victim.pid → awake p = false := by
  have hro : Forall₂ (fun p q : Proc => q.pid = p.pid ∧ q.pgid = p.pgid ∧
      if p.pid = victim.pid then awake q = false else p.Stays nobody q) t.tasks t'.tasks := by
    rw [htasks]
    refine notify_tasks.imp fun p q hs => ?_
    split_ifs at hs ⊢
    · exact ⟨hs.pid.trans (hf p).1, hs.pgid.trans (hf p).2.1, hs.awake.trans (hf p).2.2⟩
    · exact ⟨hs.pid, hs.pgid, hs⟩
  have hpi : t'.pids = t.pids := related_keys hro fun _ _ hs => hs.1
  have hqu : ∀ q ∈ t'.tasks, q.pid = victim.pid → awake q = false := by
    intro q hq hqv
    obtain ⟨p, _, hpid, _, hst⟩ := related_right hro hq
    rwa [if_pos (hpid ▸ hqv)] at hst
  have hgr : ∀ q ∈ t'.tasks, q.pid ≠ idlePid → q.pgid ≠ 0 := by
    intro q hq hq0
    obtain ⟨p, hp, hpid, hpg, _⟩ := related_right hro hq
    rw [hpg]
    exact h.groups p hp (hpid ▸ hq0)
  refine ⟨⟨?_, ?_, by simpa using hgr, ?_⟩, hqu⟩
  · rw [pids_congr passTerminal_tasks, hpi]
    exact h.pids
  · rw [passTerminal_tasks]
    intro q hq hq0
    obtain ⟨p, hp, hpid, _, hst⟩ := related_right hro hq
    have hpv : p.pid ≠ victim.pid := fun hpv => hi (by rw [← hpv, ← hpid, hq0])
    rw [if_neg hpv] at hst
    rcases hst.state with ⟨heq, _⟩ | ⟨_, hru | ⟨_, hn⟩⟩
    · rw [heq]
      exact h.idle p hp (hpid ▸ hq0)
    · exact hru
    · exact absurd hn id
  · refine passTerminal_owned hqu (fun hvg => ?_) (fun hz q hq hq0 hg => ?_) fun p hp => ?_
    · -- the owner is in another group, so it is not the victim
      rw [hfg] at hvg ⊢
      rcases h.owned.1 with hz | ⟨p, hp, hpg, ha⟩
      · exact .inl hz
      · have hpv : p.pid ≠ victim.pid := by
          obtain ⟨v, hv, hvp, hv'⟩ := hmem
          intro hpv
          rw [eq_of_pid h.pids hp hv (hpv.trans hvp.symm), hv'] at hpg
          exact hvg hpg
        obtain ⟨q, hq, _, hqg, hpq⟩ := related_left hro hp
        rw [if_neg hpv] at hpq
        exact .inr ⟨q, hq, hqg.trans hpg, hpq.awake.trans ha⟩
    · obtain ⟨p, hp, hpid, hpg, hst⟩ := related_right hro hq
      split_ifs at hst
      · exact hst
      · rw [hst.awake]
        exact h.owned.2 (hfg ▸ hz) p hp (hpid ▸ hq0) (hpg ▸ hg)
    · -- a parent that waits is neither the victim nor the idle task
      have hfi : (t.modify victim.pid f).tasks.find? (awaits victim) = some p := hp
      have hw : p.state = .waiting := by
        have := find?_some hfi
        simp only [awaits, decide_eq_true_eq] at this
        exact this.2.1
      have haw : awake p = true := by simp [awake, hw]
      obtain ⟨r, hr, rfl⟩ := mem_map.1 (mem_of_find?_eq_some hfi)
      have hrv : r.pid ≠ victim.pid := by
        intro hrv
        rw [if_pos hrv, (hf r).2.2] at haw
        cases haw
      rw [if_neg hrv] at hw haw ⊢
      obtain ⟨q, hq, hqp, hqg, hrq⟩ := related_left hro hr
      rw [if_neg hrv] at hrq
      refine ⟨?_, q, hq, hqg, hrq.awake.trans haw⟩
      rw [← hqg]
      refine hgr q hq fun hz => ?_
      rw [h.idle r hr (hqp ▸ hz)] at hw
      cases hw

lemma remove (hq : ∀ p ∈ t.tasks, p.pid = pid → awake p = false)
    (htasks : t'.tasks = t.tasks.filter fun p => decide (p.pid ≠ pid))
    (hf : t'.foregroundPgid = t.foregroundPgid) : TerminalInv t' := by
  have hs : ∀ p ∈ t'.tasks, p ∈ t.tasks := by
    intro p hp
    rw [htasks] at hp
    exact (mem_filter.1 hp).1
  refine ⟨?_, fun p hp => h.idle p (hs p hp), fun p hp => h.groups p (hs p hp), ?_,
    fun hz p hp => h.owned.2 (hf ▸ hz) p (hs p hp)⟩
  · rw [ProcTable.pids, htasks]
    exact h.pids.sublist (filter_sublist.map _)
  · rw [hf]
    rcases h.owned.1 with hz | ⟨p, hp, hg, ha⟩
    · exact .inl hz
    · refine .inr ⟨p, ?_, hg, ha⟩
      rw [htasks, mem_filter]
      refine ⟨hp, ?_⟩
      simp only [ne_eq, decide_eq_true_eq]
      intro hpid
      rw [hq p hp hpid] at ha
      cases ha

lemma reap : TerminalInv (t.reapTask e pid) := by
  rcases t.reapTask_cases e pid with heq | ⟨v, hv, _, hi, heq⟩
  · rw [heq]
    exact h
  · have hs := Steady.letGo t e
    obtain ⟨v', hv', hp⟩ := hs.mem (mem_of_task? hv).1
    have hf : ∀ p, (markDead p).pid = p.pid ∧ (markDead p).pgid = p.pgid ∧
        awake (markDead p) = false := fun p => ⟨rfl, rfl, rfl⟩
    have hr := @notify_rest (t.letGo e) v markDead v.exitCode v.exitCode
      (fun p => decide (p.waitReason = .pid)) false
    obtain ⟨hinv, hq⟩ := @silence (t.letGo e) (((t.letGo e).exitNews v).dropParkedStatuses v.pid)
      v markDead (h.quiet hs) ⟨v', hv', hp.pid, hp.pgid⟩ hi hf _ _ _ _ rfl hr.2
    rw [heq, bury_eq]
    exact hinv.remove (by simpa using hq) rfl rfl

lemma stop (sig : ℕ) : TerminalInv (t.stopTask pid sig) := by
  rcases t.stopTask_cases pid sig with heq | ⟨v, hv, _, hi, heq⟩
  · rw [heq]
    exact h
  · have hf : ∀ p, (markStopped sig p).pid = p.pid ∧ (markStopped sig p).pgid = p.pgid ∧
        awake (markStopped sig p) = false := fun p => ⟨rfl, rfl, rfl⟩
    rw [heq]
    exact (h.silence ⟨v, (mem_of_task? hv).1, rfl, rfl⟩ hi hf rfl notify_rest.2).1

lemma resume (hf : t.foregroundPgid ≠ 0) : TerminalInv (t.continueTask pid) := by
  rcases t.continueTask_cases pid with heq | ⟨v, hv, hs, heq⟩
  · rw [heq]
    exact h
  obtain ⟨hmem, hpid⟩ := mem_of_task? hv
  rw [heq]
  -- every task keeps its pid and its group, and is awake if it was
  have ho : ∀ q ∈ ((t.dropParkedStop pid).modify pid continued).tasks, ∃ p ∈ t.tasks,
      q.pid = p.pid ∧ q.pgid = p.pgid ∧ (p.pid ≠ pid → q = p) := by
    intro q hq
    obtain ⟨p, hp, rfl⟩ := mem_map.1 hq
    refine ⟨p, hp, ?_⟩
    split_ifs with hpp
    · exact ⟨rfl, rfl, fun hne => absurd hpp hne⟩
    · exact ⟨rfl, rfl, fun _ => rfl⟩
  have hpi : ((t.dropParkedStop pid).modify pid continued).pids = t.pids :=
    modify_pids fun _ => rfl
  refine ⟨hpi ▸ h.pids, fun q hq hi => ?_, fun q hq hi => ?_, .inr ?_, fun hz => absurd hz hf⟩
  · obtain ⟨p, hp, hqp, _, hsame⟩ := ho q hq
    rw [hqp] at hi
    have hr := h.idle p hp hi
    rw [hsame]
    · exact hr
    · intro hpp
      rw [eq_of_pid h.pids hp hmem (hpp.trans hpid.symm)] at hr
      simp [hr] at hs
  · obtain ⟨p, hp, hqp, hqg, _⟩ := ho q hq
    rw [hqg]
    exact h.groups p hp (hqp ▸ hi)
  · obtain ⟨p, hp, hg, ha⟩ := h.owner hf
    refine ⟨_, mem_map.2 ⟨p, hp, rfl⟩, ?_⟩
    split_ifs
    · refine ⟨hg, ?_⟩
      by_cases hc : p.stoppedWaitReason = .child <;> simp [awake, continued, hc]
    · exact ⟨hg, ha⟩

end

section

variable (h : TerminalInv t)
include h

lemma group (hme : me ∈ t.tasks) (hr : me.state = .running)
    (hi : me.pid ≠ idlePid) {pgid : ℤ} (hz : pid ≠ idlePid → pgid ≠ 0)
    (hla : t.LastInForeground pid → pgid = t.foregroundPgid) :
    TerminalInv (t.modify pid fun p => { p with pgid := pgid }) := by
  have hf := h.foreground hme hi (awake_of_running hr)
  have hpi : (t.modify pid fun p => { p with pgid := pgid }).pids = t.pids :=
    modify_pids fun _ => rfl
  refine ⟨hpi ▸ h.pids, fun q hq hi => ?_, fun q hq hi => ?_, .inr ?_, fun hz => absurd hz hf⟩
  · obtain ⟨p, hp, rfl⟩ := mem_map.1 hq
    split_ifs at hi ⊢
    · exact h.idle p hp hi
    · exact h.idle p hp hi
  · obtain ⟨p, hp, rfl⟩ := mem_map.1 hq
    split_ifs at hi ⊢ with hpid
    · exact hz (hpid ▸ hi)
    · exact h.groups p hp hi
  · obtain ⟨p, hp, hg, ha⟩ := h.owner hf
    by_cases hpid : p.pid = pid
    · by_cases hl : t.groupHasALiveMember t.foregroundPgid pid = true
      · -- somebody else keeps the terminal
        simp only [groupHasALiveMember, Bool.and_eq_true, any_eq_true, decide_eq_true_eq]
          at hl
        obtain ⟨_, q, hq, ⟨hqp, hqg⟩, hqa⟩ := hl
        exact ⟨q, mem_map.2 ⟨q, hq, if_neg hqp⟩, hqg, hqa⟩
      · have hsame := hla ⟨⟨p, hp, hpid, hg, ha⟩, by simpa using hl⟩
        exact ⟨{ p with pgid := pgid }, mem_map.2 ⟨p, hp, if_pos hpid⟩, hsame, ha⟩
    · exact ⟨p, mem_map.2 ⟨p, hp, if_neg hpid⟩, hg, ha⟩

lemma act (hok : KeepsTerminal t a) : TerminalInv (t.act a) := by
  -- a caller is awake and not the idle task
  have hca : ∀ {me c}, a.op = .inl c → t.caller a.current = some me →
      me ∈ t.tasks ∧ me.state = .running ∧ me.pid ≠ idlePid ∧ t.CallKeepsTerminal me c := by
    intro me c hop hme
    simp only [KeepsTerminal, hop] at hok
    obtain ⟨hmem, hr, _⟩ := caller_running hme
    exact ⟨hmem, hr, hok me hme⟩
  generalize hac : t.act a = t'
  have hmo : Moves t a t' := hac ▸ t.act_moves a h.pids
  cases hmo with
  | steady _ hwho hs =>
    refine h.steady hs fun reason child hw => ?_
    obtain ⟨_, me, c, hme, hc, hpid⟩ := hwho _ _ _ hw
    exact (hca hc hme).2.2.1 hpid.symm
  | wait hme hop htook hs =>
    refine .steady ?_ hs fun _ _ hw => (hca hop hme).2.2.1 hw.1.symm
    rcases htook with rfl | ⟨stopped, rfl⟩
    · exact h
    · obtain ⟨htasks, hf, _⟩ := t.takeParked_rest stopped _
      exact h.of_eq htasks hf
  | create hme hop hfresh hs _ =>
    have hi : ∃ c, a.op = .inl c := by
      rcases hop with ⟨b, hb⟩ | ⟨b, c, hb⟩
      · exact ⟨_, hb⟩
      · exact ⟨_, hb⟩
    obtain ⟨c, hop⟩ := hi
    obtain ⟨hmem, hr, hi, _⟩ := hca hop hme
    exact (h.adopt hmem hr hi hfresh).steady hs fun _ _ hw => hi hw.1.symm
  | reap hme hfate hm hcode => exact (h.quiet hm.steady).reap
  | stop hme hfate sig => exact h.stop sig
  | @group me pid pgid pid' pgid' hme hop hpid hpgid hown hgroup =>
    obtain ⟨hmem, hr, hi, hk⟩ := hca hop hme
    refine .quiet ?_ (.ret _ _ _)
    refine h.group hmem hr hi (fun hz => ?_) fun hl => ?_
    · rw [hpgid]
      split_ifs with hze
      · exact hz
      · exact hze
    · subst hpid hpgid
      exact hk hown hgroup hl
  | @terminal me pgid hme hop hpgid hown =>
    obtain ⟨hmem, hr, hi, hk⟩ := hca hop hme
    have hre : TerminalInv (t.ret me.pid 0) := h.quiet (.ret t _ _)
    -- the caller is awake itself, or its child's group has a task that is
    obtain ⟨p, hp, hg, ha⟩ : ∃ p ∈ t.tasks, p.pgid = pgid ∧ awake p = true := by
      rcases hown with hg | hc
      · exact ⟨me, hmem, hg, by simp [awake, hr]⟩
      · exact hk hpgid hc
    obtain ⟨q, hq, hpq⟩ := (Steady.ret t me.pid 0).mem hp
    exact ⟨hre.pids, hre.idle, hre.groups,
      .inr ⟨q, hq, hpq.pgid.trans hg, hpq.awake.trans ha⟩, fun hz => absurd hz hpgid⟩

lemma signal (current : Option ℤ) {sig : ℤ} (hco : sig.toNat = sigCont → t.foregroundPgid ≠ 0) :
    TerminalInv (t.sendUserSignal e current sig pid) ∧
      (sig.toNat = sigCont → (t.sendUserSignal e current sig pid).foregroundPgid ≠ 0) := by
  generalize hse : t.sendUserSignal e current sig pid = t'
  have hmo : SignalMoves e current sig pid t t' := hse ▸ t.sendUserSignal_moves e current sig pid
  cases hmo with
  | quiet _ hs => exact ⟨h.quiet hs, fun hc => hs.terminal ▸ hco hc⟩
  | reap hp hfate hm hcode =>
    refine ⟨(h.quiet hm.steady).reap, fun hc => ?_⟩
    rw [hc, signalFate_cont] at hfate
    cases hfate
  | stop hp hfate hm =>
    refine ⟨(h.quiet hm.steady).stop _, fun hc => ?_⟩
    rw [hc, signalFate_cont] at hfate
    cases hfate
  | @resume p hp hsig =>
    refine ⟨h.resume (hco hsig), fun _ => ?_⟩
    rcases t.continueTask_cases p.pid with heq | ⟨_, _, _, heq⟩
    · rw [heq]
      exact hco hsig
    · rw [heq]
      exact hco hsig

lemma signals_same (hok : KeepsTerminal t a) : ∃ sig : ℤ,
    (∀ s ∈ t.signals a, s.2 = sig) ∧ (sig.toNat = sigCont → (t.act a).foregroundPgid ≠ 0) := by
  rcases a with ⟨e, current, c | ev⟩
  · rcases hme : t.caller current with _ | me
    · exact ⟨0, by simp [signals, hme], by simp [sigCont]⟩
    obtain ⟨hmem, hr, _⟩ := caller_running hme
    have hf := h.foreground hmem (hok me hme).1 (awake_of_running hr)
    cases c with
    | kill target sig =>
      refine ⟨sig, by simp [signals, hme], fun _ => ?_⟩
      simp only [ProcTable.act, hme]
      exact hf
    | readTerminal =>
      refine ⟨sigTtin, by simp [signals, hme], by simp [sigCont, sigTtin]⟩
    | fork | exec | exit | segfault | wait | signal | setpgid | tcsetpgrp | block | deliver
    | sigreturn | settle =>
      exact ⟨0, by simp [signals, hme], by simp [sigCont]⟩
  · cases ev with
    | key sig =>
      refine ⟨if sig = sigInt ∨ sig = sigTstp then sig else 0, fun s hs => ?_, ?_⟩
      · simp only [signals] at hs
        split_ifs at hs ⊢
        · obtain ⟨x, _, rfl⟩ := mem_map.1 hs
          rfl
        · simp at hs
      · split_ifs with hsig
        · rcases hsig with rfl | rfl <;> simp [sigInt, sigTstp, sigCont]
        · simp [sigCont]
    | alarm pid => exact ⟨sigAlrm, by simp [signals], by simp [sigAlrm, sigCont]⟩
    | wakeup | wake | reapZombies => exact ⟨0, by simp [signals], by simp [sigCont]⟩

lemma step (hok : KeepsTerminal t a) : TerminalInv (procStep t a) := by
  obtain ⟨sig, hsame, hf⟩ := h.signals_same hok
  have hse := @foldl_invariant_mem _ _
    (fun t s => t.sendUserSignal a.env a.current s.2 s.1)
    (fun u => TerminalInv u ∧ (sig.toNat = sigCont → u.foregroundPgid ≠ 0)) (t.signals a) (t.act a)
    (fun u s hs hu => by
      obtain rfl := hsame s hs
      exact hu.1.signal a.current hu.2)
    ⟨h.act hok, hf⟩
  exact hse.1

end

lemma boot : TerminalInv bootTable := by
  refine ⟨by decide, ?_, ?_, ?_⟩
  · simp [bootTable, newProc, idlePid]
  · simp [bootTable, newProc, idlePid]
  · unfold TerminalOwned
    decide

end TerminalInv

/-- Where calls keep the terminal usable, it belongs to a group with a task running or waiting, or
to nobody if there is none. -/
theorem procRun_terminalOwned (as : List ProcStep)
    (h : StepsMeet procStep KeepsTerminal bootTable as) :
    TerminalOwned (procRun bootTable as) :=
  (foldl_induction (fun _ _ ht ha => TerminalInv.step ht ha) as TerminalInv.boot h).owned

/-- A job is given the terminal, stopped and continued. -/
theorem procRun_terminalOwned_job : TerminalOwned (procRun bootTable
    [.plain 1 (.fork .all), .plain 1 (.setpgid 2 2), .plain 1 (.tcsetpgrp 2), .plain 1 (.kill 2 20),
      .plain 1 (.kill 2 18)]) :=
  procRun_terminalOwned _ (by decide)

/-- The terminal is given to a job that is stopped. -/
theorem procRun_terminal_stopped : ¬ TerminalOwned (procRun bootTable
    [.plain 1 (.fork .all), .plain 1 (.setpgid 2 2), .plain 1 (.kill 2 20),
      .plain 1 (.tcsetpgrp 2)]) := by
  unfold TerminalOwned
  decide

/-- The last task of the foreground group moves to another. -/
example : ¬ TerminalOwned (procRun bootTable
    [.plain 1 (.fork .all), .plain 2 (.setpgid 2 2), .plain 1 (.setpgid 0 2)]) := by
  unfold TerminalOwned
  decide

end EsdumanOS
