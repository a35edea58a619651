import EsdumanOS.Proofs.Moves

/-!
# Waiting parents and parked news

`reap_task` and `stop_task` look for the parent among the waiting tasks. One that is stopped is not
among them, and `continue_task` puts it back to wait for a child that is gone. A task whose parent
is gone still parks a notice.
-/

namespace EsdumanOS

open ProcTable List Lib

variable {t t' : ProcTable} {p q v me : Proc} {e : ReapEnv} {pid : ℤ} {a : ProcStep}
  {who : MaySleep}

lemma procStep_invariant {inv : ProcTable → Prop} {ok : TaskFate → ProcTable → Proc → Prop}
    (ha : ∀ t a, inv t → (∀ x ∈ t.callFate a, ok x.2 t x.1) → inv (t.act a))
    (hsig : ∀ t e current sig pid, inv t →
      (∀ p ∈ t.target? pid, ∀ f ∈ signalFate current p sig.toNat, ok f t p) →
      inv (t.sendUserSignal e current sig pid))
    (h : inv t) (hok : FatesMeet ok t a) : inv (procStep t a) :=
  foldl_induction (fun t s ht hs => hsig t a.env a.current s.2 s.1 ht hs) (t.signals a)
    (ha t a h hok.1) hok.2

/-- Pids name one task each, and the child of every `exec` is in the list, as a child of its
caller. -/
structure ExecInv (t : ProcTable) : Prop where
  pids : t.pids.Nodup
  child : ∀ p ∈ t.tasks, p.state = .waiting → p.waitReason = .child →
    ∃ c ∈ t.tasks, c.pid = p.execChildPid ∧ c.parentPid = p.pid

/-- A task after an update: inside `exec` it was so before, or its child is in `l`. -/
structure Proc.Later (l : List Proc) (p q : Proc) : Prop where
  pid : q.pid = p.pid
  parent : q.parentPid = p.parentPid
  waits : q.state = .waiting → q.waitReason = .child →
    (p.state = .waiting ∧ p.waitReason = .child ∧ q.execChildPid = p.execChildPid) ∨
      ∃ c ∈ l, c.pid = q.execChildPid ∧ c.parentPid = q.pid

lemma Proc.Stays.later {l : List Proc} (h : p.Stays who q)
    (hk : ∀ pid child, who pid .child child → ∃ c ∈ l, c.pid = child ∧ c.parentPid = pid) :
    p.Later l q := by
  refine ⟨h.pid, h.parent, fun hs hw => ?_⟩
  rcases h.state with ⟨hsame, hwa⟩ | ⟨_, hr | ⟨_, hm⟩⟩
  · exact .inl ⟨hsame ▸ hs, (hwa hs).1 ▸ hw, (hwa hs).2⟩
  · rw [hr] at hs
    cases hs
  · rw [hw] at hm
    exact .inr (hk _ _ hm)

section

variable (h : ExecInv t)
include h

lemma ExecInv.later (hl : Forall₂ (Proc.Later t.tasks) t.tasks t'.tasks) : ExecInv t' := by
  refine ⟨?_, fun q hq hs hw => ?_⟩
  · rw [ProcTable.pids, related_keys hl fun _ _ h => h.pid]
    exact h.pids
  obtain ⟨p, hp, hpq⟩ := related_right hl hq
  have hch : ∃ c ∈ t.tasks, c.pid = q.execChildPid ∧ c.parentPid = q.pid := by
    rcases hpq.waits hs hw with ⟨hs', hw', he⟩ | hc
    · rw [he, hpq.pid]
      exact h.child p hp hs' hw'
    · exact hc
  obtain ⟨c, hc, hcp, hcq⟩ := hch
  obtain ⟨c', hc', hcc⟩ := related_left hl hc
  exact ⟨c', hc', hcc.pid.trans hcp, hcc.parent.trans hcq⟩

lemma ExecInv.steady (hs : Steady who t t')
    (hk : ∀ pid child, who pid .child child → ∃ c ∈ t.tasks, c.pid = child ∧ c.parentPid = pid) :
    ExecInv t' :=
  h.later (hs.tasks.imp fun _ _ hp => hp.later hk)

lemma ExecInv.quiet (hs : Steady nobody t t') : ExecInv t' :=
  h.steady hs fun _ _ hn => absurd hn id

lemma ExecInv.notify {f : Proc → Proc} {value code : ℤ} {parks : Proc → Bool} {stopped : Bool}
    (hf : ∀ p, (f p).pid = p.pid ∧ (f p).parentPid = p.parentPid ∧
      (f p).state ≠ .waiting) : ExecInv (t.notify f v value parks code stopped) := by
  refine h.later (notify_tasks.imp fun p q hs => ?_)
  have hl := hs.later (l := t.tasks) fun _ _ hn => absurd hn id
  split_ifs at hl with hpid
  · refine ⟨hl.pid.trans (hf p).1, hl.parent.trans (hf p).2.1, fun hq hw => ?_⟩
    exact (hl.waits hq hw).imp_left fun hp => absurd hp.1 (hf p).2.2
  · exact hl

lemma ExecInv.adopt {next : ℤ} (hfresh : pid ∉ t.pids) :
    ExecInv (t.adopt pid next me) := by
  refine ⟨t.adopt_nodup h.pids hfresh, fun p hp hs hw => ?_⟩
  rcases mem_adopt t hp with hp | rfl
  · obtain ⟨c, hc, hcp⟩ := h.child p hp hs hw
    exact ⟨c, mem_append_left _ hc, hcp⟩
  · cases hs

lemma ExecInv.bury
    (hv : ∃ w ∈ t.tasks, w.pid = v.pid ∧ w.parentPid = v.parentPid) : ExecInv (t.bury v) := by
  have h1 : ExecInv (t.exitNews v) := h.notify fun p => ⟨rfl, rfl, by simp [markDead]⟩
  have htasks := (t.bury_rest v).1
  refine ⟨?_, fun p hp hs hw => ?_⟩
  · rw [ProcTable.pids, htasks]
    exact h1.pids.sublist (filter_sublist.map _)
  rw [htasks, mem_filter] at hp
  obtain ⟨c, hc, hcp, hcq⟩ := h1.child p hp.1 hs hw
  refine ⟨c, ?_, hcp, hcq⟩
  rw [htasks, mem_filter]
  refine ⟨hc, ?_⟩
  simp only [ne_eq, decide_eq_true_eq]
  intro hd
  -- the child would be the victim, and its parent is awake by now
  obtain ⟨w, hw', hwp, hwq⟩ := hv
  obtain ⟨w', hw'', hl⟩ := related_left notify_tasks hw'
  rw [if_pos hwp] at hl
  have hcw : c = w' := eq_of_pid h1.pids hc hw'' (hd.trans (hwp.symm.trans hl.pid.symm))
  have hpa : p.pid = v.parentPid := by
    rw [← hcq, hcw]
    exact hl.parent.trans hwq
  have := awaits_notify (f := markDead) (fun _ => rfl) h.pids hp.1
  simp [awaits, hpa, hs, hw, ← hcp, hd] at this

lemma ExecInv.reap : ExecInv (t.reapTask e pid) := by
  rcases t.reapTask_cases e pid with heq | ⟨v, hv, _, _, heq⟩
  · rw [heq]
    exact h
  · rw [heq]
    obtain ⟨w, hw, hs⟩ := (Steady.letGo t e).mem (mem_of_task? hv).1
    exact (h.quiet (.letGo t e)).bury ⟨w, hw, hs.pid, hs.parent⟩

lemma ExecInv.stop (sig : ℕ) : ExecInv (t.stopTask pid sig) := by
  rcases t.stopTask_cases pid sig with heq | ⟨v, _, _, _, heq⟩
  · rw [heq]
    exact h
  · have h1 : ExecInv (t.stopNews v sig) := h.notify fun p => ⟨rfl, rfl, by simp [markStopped]⟩
    rw [heq]
    refine ⟨?_, ?_⟩
    · rw [pids_congr passTerminal_tasks]
      exact h1.pids
    · rw [passTerminal_tasks]
      exact h1.child

lemma ExecInv.continue (hp : p ∈ t.tasks)
    (hok : ContinuedWithChild .continued t p) : ExecInv (t.continueTask p.pid) := by
  rcases t.continueTask_cases p.pid with heq | ⟨v, hv, hs, heq⟩
  · rw [heq]
    exact h
  · obtain ⟨hmem, hpid⟩ := mem_of_task? hv
    obtain rfl := eq_of_pid h.pids hmem hp hpid
    rw [heq]
    refine h.later (forall₂_map_right_iff.2 (forall₂_same.2 fun q hq => ?_))
    split_ifs with hqv
    · obtain rfl := eq_of_pid h.pids hq hmem hqv
      refine ⟨rfl, rfl, fun hqs _ => .inr ?_⟩
      by_cases hc : q.stoppedWaitReason = .child
      · exact hok hs hc
      · simp [continued, hc] at hqs
    · exact (Proc.Stays.refl nobody q).later fun _ _ hn => absurd hn id

lemma ExecInv.act : ExecInv (t.act a) := by
  generalize ha : t.act a = t'
  have hmo : Moves t a t' := ha ▸ t.act_moves a h.pids
  cases hmo with
  | steady _ hwho hs => exact h.steady hs fun pid child hw => absurd rfl (hwho _ _ _ hw).1
  | @wait me _ _ _ _ _ _ _ htook hs =>
    refine .steady ?_ hs fun _ _ hw => by simpa using hw.2 rfl
    rcases htook with rfl | ⟨stopped, rfl⟩
    · exact h
    · have htasks := (t.takeParked_rest stopped me.pid).1
      exact ⟨pids_congr htasks ▸ h.pids, htasks ▸ h.child⟩
  | create _ _ hfresh hs _ =>
    refine (h.adopt hfresh).steady hs fun pid child hw => ?_
    obtain ⟨rfl, hc⟩ := hw
    obtain rfl := Option.some.inj (hc rfl)
    exact ⟨_, mem_append_right _ (mem_singleton_self _), rfl, rfl⟩
  | reap _ _ hm _ => exact (h.quiet hm.steady).reap
  | stop _ _ sig => exact h.stop sig
  | group _ _ _ _ _ _ =>
    have hg : ∀ pid pgid, ExecInv (t.modify pid fun p => { p with pgid := pgid }) := by
      refine fun pid pgid => h.later (related_map (fun p => ?_) _)
      split_ifs
      · exact ⟨rfl, rfl, fun hs hw => .inl ⟨hs, hw, rfl⟩⟩
      · exact ⟨rfl, rfl, fun hs hw => .inl ⟨hs, hw, rfl⟩⟩
    exact (hg _ _).quiet (.ret _ _ _)
  | @terminal me _ _ _ _ _ =>
    have hr := h.quiet (.ret t me.pid 0)
    exact ⟨hr.pids, hr.child⟩

lemma execInv_step (hok : FatesMeet ContinuedWithChild t a) : ExecInv (procStep t a) := by
  refine procStep_invariant (fun t a h _ => h.act) (fun t e current sig pid h hok => ?_) h hok
  generalize hse : t.sendUserSignal e current sig pid = t'
  have hmo : SignalMoves e current sig pid t t' := hse ▸ t.sendUserSignal_moves e current sig pid
  cases hmo with
  | quiet _ hs => exact h.quiet hs
  | reap _ _ hm _ => exact (h.quiet hm.steady).reap
  | stop _ _ hm => exact (h.quiet hm.steady).stop _
  | resume hp hsig =>
    refine h.continue (mem_of_target? hp) (hok _ hp _ ?_)
    rw [hsig]
    exact signalFate_cont _ _

end

lemma execInv_boot : ExecInv bootTable := by
  refine ⟨by decide, fun p hp hs _ => ?_⟩
  simp only [bootTable, mem_cons, not_mem_nil, or_false] at hp
  rcases hp with rfl | rfl <;> simp [newProc] at hs

/-- Where a task stopped inside `exec` is continued only with its child there, the child of every
`exec` is in the list. -/
theorem procRun_execChildListed (as : List ProcStep)
    (h : StepsMeet procStep (FatesMeet ContinuedWithChild) bootTable as) :
    ExecChildListed (procRun bootTable as) := by
  have hinv := foldl_induction (fun _ _ ht ha => execInv_step ht ha) as execInv_boot h
  intro p hp hs hw
  obtain ⟨c, hc, hcp, _⟩ := hinv.child p hp hs hw
  exact ⟨c, hc, hcp⟩

/-- A job inside `exec` is stopped, and continued while its child is still there. -/
theorem procRun_execChildListed_job : ExecChildListed (procRun bootTable
    [.plain 1 (.fork .all), .plain 2 (.exec .all false), .plain 1 (.kill 2 20),
      .plain 1 (.kill 2 18)]) :=
  procRun_execChildListed _ (by decide)

/-- The child exits while its parent is stopped, and the parent is continued into a wait that
nothing can end. -/
theorem procRun_execChild_gone : ¬ ExecChildListed (procRun bootTable
    [.plain 1 (.fork .all), .plain 2 (.exec .all false), .plain 1 (.kill 2 20),
      .plain 3 (.exit 0), .plain 1 (.kill 2 18)]) := by
  unfold ExecChildListed
  decide

structure NewsInv (t : ProcTable) : Prop where
  pids : t.pids.Nodup
  parent : ∀ i, (t.slots i).used = true → (t.slots i).parentPid ∈ t.pids

section

variable (h : NewsInv t)
include h

lemma NewsInv.of_old (hp : t'.pids = t.pids)
    (ho : ∀ i, (t'.slots i).used = true → t'.slots i = t.slots i) : NewsInv t' := by
  refine ⟨hp ▸ h.pids, fun i hi => ?_⟩
  have heq := ho i hi
  rw [heq] at hi ⊢
  rw [hp]
  exact h.parent i hi

lemma NewsInv.steady (hs : Steady who t t') : NewsInv t' :=
  h.of_old hs.pids fun i _ => congrFun hs.slots i

lemma NewsInv.adopt {next : ℤ} (hfresh : pid ∉ t.pids) : NewsInv (t.adopt pid next me) := by
  refine ⟨t.adopt_nodup h.pids hfresh, fun i hi => ?_⟩
  rw [adopt_pids]
  exact mem_append_left _ (h.parent i hi)

lemma NewsInv.parks (hk : Parks p t t')
    (hp : p.parentPid ≤ 0 ∨ ∃ q ∈ t.tasks, q.pid = p.parentPid) {i : ℕ}
    (hi : (t'.slots i).used = true) : (t'.slots i).parentPid ∈ t.pids := by
  by_cases hn : Noted p t t' i
  · rw [(hk.new i hi hn).2]
    rcases hp with hle | hq
    · exact (hk.told hn.1).resolve_left (by omega)
    · exact mem_map.2 hq
  · have heq := hk.old i hi hn
    rw [heq] at hi ⊢
    exact h.parent i hi

lemma NewsInv.reap {t1 : ProcTable} (hp : p ∈ t.tasks) (hm : Marks t t1)
    (hpa : ParentListed .reaped t p) : NewsInv (t1.reapTask e p.pid) := by
  have hk := @Parks.reap t t1 p e h.pids hp hm
  rcases t1.reapTask_cases e p.pid with heq | ⟨v, hv, _, _, heq⟩
  · rw [heq]
    exact h.steady hm.steady
  · obtain ⟨htasks, hs, _⟩ := (t1.letGo e).bury_rest v
    have hpi : (t1.reapTask e p.pid).pids = t.pids.filter fun x => decide (x ≠ p.pid) := by
      rw [heq, ProcTable.pids, htasks, ← hm.steady.pids, ← (Steady.letGo t1 e).pids,
        ← exitNews_pids,
        filter_map, (mem_of_task? hv).2]
      rfl
    refine ⟨hpi ▸ h.pids.filter _, fun i hi => ?_⟩
    rw [hpi, mem_filter]
    refine ⟨h.parks hk hpa hi, ?_⟩
    -- what is left is not for the victim
    rw [heq, hs] at hi ⊢
    obtain ⟨hsame, _, ho⟩ := dropSlots_slot hi
    have hp' := congrArg ExitSlot.parentPid hsame
    rw [decide_eq_false_iff_not, ← hp', (mem_of_task? hv).2] at ho
    rw [(mem_of_task? hv).2]
    exact decide_eq_true ho

lemma NewsInv.stop {t1 : ProcTable} (hp : p ∈ t.tasks) (hm : Marks t t1) (sig : ℕ)
    (hpa : ParentListed .stopped t p) : NewsInv (t1.stopTask p.pid sig) := by
  rcases hpa with hst | hpa
  · obtain ⟨v, hv, _, _, _, hs⟩ := hm.task h.pids hp
    rcases t1.stopTask_cases p.pid sig with heq | ⟨w, hw, hne, _, _⟩
    · rw [heq]
      exact h.steady hm.steady
    · obtain rfl := Option.some.inj (hv.symm.trans hw)
      exact absurd (hs.trans hst) hne
  · have hpi : (t1.stopTask p.pid sig).pids = t.pids := by
      rw [stopTask_pids, hm.steady.pids]
    refine ⟨hpi ▸ h.pids, fun i hi => ?_⟩
    rw [hpi]
    exact h.parks (.stop h.pids hp hm) hpa hi

lemma NewsInv.continue : NewsInv (t.continueTask pid) :=
  h.of_old (continueTask_pids t pid) fun _ hi => continueTask_kept hi

lemma NewsInv.act (hok : ∀ x ∈ t.callFate a, ParentListed x.2 t x.1) : NewsInv (t.act a) := by
  generalize ha : t.act a = t'
  have hmo : Moves t a t' := ha ▸ t.act_moves a h.pids
  cases hmo with
  | steady _ _ hs => exact h.steady hs
  | wait _ _ htook hs =>
    refine .steady ?_ hs
    rcases htook with rfl | ⟨stopped, rfl⟩
    · exact h
    · exact h.of_old (pids_congr (t.takeParked_rest _ _).1) fun i hi => takeParked_kept hi
  | create _ _ hfresh hs _ => exact (h.adopt hfresh).steady hs
  | reap hme hfate hm _ => exact h.reap (mem_of_caller hme) hm (hok _ hfate)
  | stop hme hfate sig => exact h.stop (mem_of_caller hme) (.refl t) sig (hok _ hfate)
  | group _ _ _ _ _ _ =>
    refine .steady ?_ (.ret _ _ _)
    exact h.of_old (modify_pids fun _ => rfl) fun _ _ => rfl
  | @terminal me _ _ _ _ _ =>
    have hr := h.steady (.ret t me.pid 0)
    exact ⟨hr.pids, hr.parent⟩

lemma newsInv_step (hok : FatesMeet ParentListed t a) : NewsInv (procStep t a) := by
  refine procStep_invariant (fun t a h hok => h.act hok) (fun t e current sig pid h hok => ?_) h hok
  generalize hse : t.sendUserSignal e current sig pid = t'
  have hmo : SignalMoves e current sig pid t t' := hse ▸ t.sendUserSignal_moves e current sig pid
  cases hmo with
  | quiet _ hs => exact h.steady hs
  | reap hp hfate hm _ => exact h.reap (mem_of_target? hp) hm (hok _ hp _ hfate)
  | stop hp hfate hm => exact h.stop (mem_of_target? hp) hm _ (hok _ hp _ hfate)
  | resume _ _ => exact h.continue

end

lemma newsInv_boot : NewsInv bootTable :=
  ⟨by decide, fun i hi => by simp [bootTable, ExitSlot.zero] at hi⟩

/-- Where every task that dies or stops has a listed parent or none to tell, the parent of every
notice is in the list. -/
theorem procRun_newsListed (as : List ProcStep)
    (h : StepsMeet procStep (FatesMeet ParentListed) bootTable as) :
    NewsListed (procRun bootTable as) := by
  have hinv := foldl_induction (fun _ _ ht ha => newsInv_step ht ha) as newsInv_boot h
  exact fun i _ hi => mem_map.1 (hinv.parent i hi)

/-- A child exits before its parent does. -/
theorem procRun_newsListed_child : NewsListed (procRun bootTable
    [.plain 1 (.fork .all), .plain 2 (.fork .all), .plain 3 (.exit 5), .plain 2 (.exit 0)]) :=
  procRun_newsListed _ (by decide)

/-- A task exits after its parent, and its status stays parked for a pid that is gone. -/
theorem procRun_news_leaks : ¬ NewsListed (procRun bootTable
    [.plain 1 (.fork .all), .plain 2 (.fork .all), .plain 2 (.exit 0), .plain 3 (.exit 5)]) := by
  unfold NewsListed
  decide

end EsdumanOS
