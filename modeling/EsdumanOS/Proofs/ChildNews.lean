import EsdumanOS.Proofs.NewsSlots

/-!
# Exits are delivered once, in order

What a task has got and what is parked for it make up what it is owed, as long as no exit leaves a
stop notice behind. A parent that was stopped inside `exec` and continued is handed the status of
its child with a stop notice about that child still parked.
-/

namespace EsdumanOS

open ProcTable Function List NewsState ExitSlot

variable {t t' t1 : ProcTable} {p me : Proc} {pid parent status : ℤ} {e : ReapEnv} {a : ProcStep}
  {stopped : Bool} {noHang untraced ptrOk copyOk : Bool}

/-- The notices are in order, and every task has got what it was owed but for what is parked. -/
structure NewsInvariant (s : NewsState) : Prop where
  slots : NewsSlots s.table
  exits : ∀ p ∈ s.table.tasks, 0 < p.pid →
    s.owed p.pid = s.got p.pid ++ (s.table.exitQueue p.pid).map news

namespace NewsInvariant

variable {s : NewsState}

lemma exits_pid (h : NewsInvariant s) (hpid : pid ∈ s.table.pids) (hpo : 0 < pid) :
    s.owed pid = s.got pid ++ (s.table.exitQueue pid).map news := by
  obtain ⟨p, hp, rfl⟩ := mem_map.1 hpid
  exact h.exits p hp hpo

lemma moveTo (hs : NewsSlots t') (he : ∀ pid ∈ t'.pids,
    pid ∈ s.table.pids → 0 < pid →
      s.owed pid = s.got pid ++ (t'.exitQueue pid).map news) :
    NewsInvariant (s.moveTo t') := by
  refine ⟨hs, fun p hp hpo => ?_⟩
  have hmem : p.pid ∈ t'.pids := mem_map_of_mem hp
  simp only [NewsState.moveTo, hmem, true_and]
  split_ifs with ho
  · exact he p.pid hmem ho hpo
  · rfl

lemma unchanged (h : NewsInvariant s) (hs : NewsSlots t')
    (hq : ∀ pid, (t'.exitQueue pid).map news =
      (s.table.exitQueue pid).map news) : NewsInvariant (s.moveTo t') :=
  moveTo hs fun pid _ ho hp => by rw [hq, h.exits_pid ho hp]

lemma calm (h : NewsInvariant s) (hc : NewsSlots.Calm s.table t') : NewsInvariant (s.moveTo t') :=
  h.unchanged (h.slots.calm hc) fun pid => by rw [exitQueue_eq hc.slots]

lemma parksExit_iff (hp : 0 < p.parentPid) : t.parksExit p = true ↔ t.inExec p = false := by
  unfold parksExit inExec
  cases t.waitingParent p with
  | none => simp [hp]
  | some q => simp

lemma exited_owed (h : NewsInvariant s) (hi : p.pid ≠ idlePid)
    (hpid : pid ∈ s.table.pids) (hpo : 0 < pid) :
    (s.exited p status).owed pid = s.got pid ++ ((s.table.exitQueue pid).map news ++
      if s.table.parksExit p = true ∧ p.parentPid = pid then [(p.pid, status)] else []) := by
  have ho := h.exits_pid hpid hpo
  unfold exited
  by_cases hpa : p.parentPid = pid
  · subst hpa
    cases he : s.table.inExec p with
    | false =>
      have hp := (parksExit_iff hpo).2 he
      rw [if_pos ⟨hi, hpo, hpid, rfl⟩, if_pos ⟨hp, rfl⟩]
      dsimp only
      rw [update_self, ho, append_assoc]
    | true =>
      have hp : ¬ s.table.parksExit p = true := by
        rw [parksExit_iff hpo, he]
        simp
      rw [if_neg (by simp), if_neg fun hc => hp hc.1, append_nil]
      exact ho
  · have hn : ¬ (s.table.parksExit p = true ∧ p.parentPid = pid) := fun hc => hpa hc.2
    rw [if_neg hn, append_nil, ← ho]
    split_ifs
    · exact update_of_ne (Ne.symm hpa) _ _
    · rfl

lemma exited_got : (s.exited p status).got = s.got := by
  unfold exited
  split_ifs <;> rfl

lemma exited_table : (s.exited p status).table = s.table := by
  unfold exited
  split_ifs <;> rfl

lemma reap (h : NewsInvariant s) (hp : p ∈ s.table.tasks) (hd : p.state ≠ .dead)
    (hm : Marks s.table t1) (hcode : ∀ v ∈ t1.tasks, v.pid = p.pid → v.exitCode = status)
    (hok : NewsFate .reaped s.table p) :
    NewsInvariant ((s.exited p status).moveTo (t1.reapTask e p.pid)) := by
  by_cases hi : p.pid = idlePid
  · -- the idle task is not reaped
    obtain ⟨v, hv, _, hpid, _, _⟩ := hm.task h.slots.pids hp
    have hsame : t1.reapTask e p.pid = t1 := by
      unfold reapTask
      rw [hv]
      dsimp only
      rw [if_pos (.inr (hpid.trans hi))]
    have he : s.exited p status = s := if_neg fun hc => hc.1 hi
    rw [hsame, he]
    exact h.calm (.of_steady hm.steady)
  · obtain ⟨hr, hn⟩ := hok.resolve_left hi
    obtain ⟨hs, hpi, hq⟩ := h.slots.reap (e := e) hp hi hd hm hcode hr hn
    refine moveTo hs fun pid hpid ho hpo => ?_
    rw [exited_table] at ho
    rw [h.exited_owed hi ho hpo, exited_got, hq pid (hpi pid hpid).2]

lemma act_eq (hfate : ∀ me, s.table.callFate a ≠ some (me, .reaped))
    (hc : s.table.collector a = none) : s.act a = s.moveTo (s.table.act a) := by
  unfold NewsState.act
  rw [hc]
  split
  · rename_i me hme
    exact absurd hme (hfate me)
  · rfl

lemma collector_none (h : t.waits a = false) : t.collector a = none := by
  unfold collector
  split
  · next hop hme => simp [waits, hop, hme] at h
  · rfl

lemma waits_of_fate {x : Proc × TaskFate} (h : t.callFate a = some x) : t.waits a = false := by
  unfold waits
  split
  · next hop hme => simp [callFate, hop] at h
  · rfl

lemma target?_alive (h : t.target? pid = some p) : p.state ≠ .dead := by
  have := find?_some h
  simp only [decide_eq_true_eq] at this
  exact this.2.2

lemma take_slots (h : NewsSlots t) (stopped : Bool) (parent : ℤ) :
    NewsSlots (t.takeParked stopped parent).2 := by
  obtain ⟨htasks, _, hs⟩ := t.takeParked_rest stopped parent
  exact h.clear htasks hs fun i => (takeParked_slot t stopped parent i).imp_right And.left

lemma take_queue (h : stopped = true ∨ parent ≠ pid) :
    (t.takeParked stopped parent).2.exitQueue pid = t.exitQueue pid := by
  refine exitQueue_clear fun i _ => (takeParked_slot t stopped parent i).imp_right fun hd =>
    ⟨hd.1, Bool.eq_false_iff.2 fun he => ?_⟩
  obtain ⟨_, hs, hp⟩ := exitFor_iff.1 he
  rcases h with rfl | hne
  · rw [hs] at hd
    exact absurd hd.2.1 (by simp)
  · exact hne (hd.2.2.symm.trans hp)

lemma takeParked_none (h : (t.takeParked stopped parent).1 = none) :
    (t.takeParked stopped parent).2 = t := by
  unfold takeParked at h ⊢
  split at h
  · rfl
  · cases h

lemma report_task (hme : me ∈ t.tasks) {n : ExitSlot} :
    ∃ q, (t.report me true n.childPid n.exitCode).task? me.pid = some q ∧
      (q.eax, q.status) = n.news := by
  have hs : ((t.report me true n.childPid n.exitCode).task? me.pid).isSome := by
    unfold task?
    rw [find?_isSome]
    exact ⟨_, mem_map.2 ⟨me, hme, rfl⟩, by simp⟩
  obtain ⟨q, hq⟩ := Option.isSome_iff_exists.1 hs
  obtain ⟨hmem, hpid⟩ := mem_of_task? hq
  obtain ⟨p, rfl⟩ := mem_modify hmem hpid
  exact ⟨_, hq, rfl⟩

section

variable (h : NewsInvariant s)
include h

lemma act_collect (hme : s.table.caller a.current = some me)
    {noHang untraced : Bool} (hop : a.op = .inl (.wait noHang untraced true true)) {n : ExitSlot}
    (hn : (s.table.takeParked false me.pid).1 = some n) :
    NewsInvariant (s.act a) ∧ (s.act a).got me.pid = s.got me.pid ++ [n.news] ∧
      s.table.exitQueue me.pid = n :: (s.act a).table.exitQueue me.pid := by
  obtain ⟨hmem, hr, _⟩ := caller_running hme
  have ha : s.table.act a = (s.table.takeParked false me.pid).2.report me true n.childPid
      n.exitCode := by
    simp [ProcTable.act, hop, hme, sysWait, hn]
  have htasks := (s.table.takeParked_rest false me.pid).1
  have hm' : me ∈ (s.table.takeParked false me.pid).2.tasks := htasks ▸ hmem
  obtain ⟨q, hq, hne⟩ := @report_task _ me hm' n
  have hs : Steady nobody (s.table.takeParked false me.pid).2 (s.table.act a) :=
    ha ▸ .report _ _ _ _ _
  have hqu : ∀ pid, (s.table.act a).exitQueue pid =
      (s.table.takeParked false me.pid).2.exitQueue pid := fun pid => exitQueue_eq hs.slots
  have hp : (s.table.act a).pids = s.table.pids := hs.pids.trans (pids_congr htasks)
  have heq : s.act a = ({ s with got := update s.got me.pid (s.got me.pid ++ [n.news]) } :
      NewsState).moveTo (s.table.act a) := by
    have hco : s.table.collector a = some me := by simp [collector, hop, hme, hn]
    have hfate : s.table.callFate a = none := by simp [callFate, hop]
    unfold NewsState.act
    rw [hco, hfate]
    dsimp only
    unfold waited
    rw [ha, hq, ← hne]
  have hf := takeParked_front h.slots hn
  rw [heq]
  refine ⟨moveTo ((take_slots h.slots _ _).calm (.of_steady hs)) fun pid _ ho hpo => ?_, ?_, ?_⟩
  · rw [hqu]
    by_cases hpid : pid = me.pid
    · subst hpid
      dsimp only
      rw [update_self, append_assoc, h.exits_pid ho hpo, hf]
      simp
    · dsimp only
      rw [update_of_ne hpid, take_queue (.inr (Ne.symm hpid))]
      exact h.exits_pid ho hpo
  · have hno : ¬ (me.pid ∈ (s.table.act a).pids ∧
        me.pid ∉ s.table.pids) := fun hc => hc.2 (hp ▸ hc.1)
    simp only [NewsState.moveTo]
    rw [if_neg hno, update_self]
  · rw [hf]
    exact congrArg _ (hqu me.pid).symm

lemma act_wait (hme : s.table.caller a.current = some me)
    (hop : a.op = .inl (.wait noHang untraced ptrOk copyOk))
    (hok : WaitStores s.table a) : NewsInvariant (s.act a) := by
  obtain ⟨hmem, hr, _⟩ := caller_running hme
  have hfate : ∀ x, s.table.callFate a ≠ some (x, .reaped) := by simp [callFate, hop]
  have ha : s.table.act a = s.table.sysWait me noHang untraced ptrOk copyOk := by
    simp [ProcTable.act, hop, hme]
  rcases hn : (s.table.takeParked false me.pid).1 with _ | n
  · -- at most a stop notice is taken
    have hco : s.table.collector a = none := by
      unfold collector
      split
      · next ho' hm' =>
        obtain rfl := Option.some.inj (hme.symm.trans hm')
        simp [hn]
      · rfl
    rw [act_eq hfate hco, ha]
    obtain ⟨t1, htook, hs⟩ := s.table.sysWait_steady h.slots.pids hmem hr noHang untraced ptrOk
      copyOk
    have ht : NewsSlots t1 ∧ ∀ pid, t1.exitQueue pid = s.table.exitQueue pid := by
      rcases htook with rfl | ⟨stopped, rfl⟩
      · exact ⟨h.slots, fun _ => rfl⟩
      · refine ⟨take_slots h.slots _ _, fun pid => ?_⟩
        cases stopped with
        | false => rw [takeParked_none hn]
        | true => exact take_queue (.inl rfl)
    refine h.unchanged (ht.1.calm (.of_steady hs)) fun pid => ?_
    rw [exitQueue_eq hs.slots, ht.2]
  · cases ptrOk with
    | false =>
      have hco : s.table.collector a = none := by simp [collector, hop]
      rw [act_eq hfate hco, ha]
      exact h.calm (.of_steady (.ret _ _ _))
    | true =>
      have hc : copyOk = true := by
        simp only [WaitStores, hop] at hok
        exact hok me hme (by simp [hn])
      subst hc
      exact (h.act_collect hme hop hn).1

lemma act (hf : ∀ x ∈ s.table.callFate a, NewsFate x.2 s.table x.1)
    (hok : WaitStores s.table a) : NewsInvariant (s.act a) := by
  have hp : ∀ {t'}, s.table.act a = t' → s.table.callFate a = none ∧ s.table.waits a = false →
      s.act a = s.moveTo t' := by
    rintro t' rfl ⟨hfate, hw⟩
    exact act_eq (by simp [hfate]) (collector_none hw)
  generalize ha : s.table.act a = t'
  have hmo : Moves s.table a t' := ha ▸ s.table.act_moves a h.slots.pids
  cases hmo with
  | steady hop _ hs =>
    rw [hp ha hop.2]
    exact h.calm (.of_steady hs)
  | wait hme hop _ _ => exact h.act_wait hme hop hok
  | create hme hop hfresh hs _ =>
    have ho' : s.table.callFate a = none ∧ s.table.waits a = false := by
      rcases hop with ⟨b, hb⟩ | ⟨b, c, hb⟩ <;> simp [callFate, waits, hb]
    rw [hp ha ho']
    refine h.unchanged ((h.slots.adopt (mem_of_caller hme) hfresh).calm (.of_steady hs))
      fun pid => ?_
    rw [exitQueue_eq hs.slots]
    rfl
  | @reap me t1 hme hfate hm hcode =>
    obtain ⟨hmem, hr, _⟩ := caller_running hme
    have heq : s.act a =
        (s.exited me (s.table.callStatus a)).moveTo (t1.reapTask a.env me.pid) := by
      unfold NewsState.act
      rw [hfate, collector_none (waits_of_fate hfate), ha]
    rw [heq]
    exact h.reap hmem (by simp [hr]) hm hcode (hf _ hfate)
  | @stop me hme hfate sig =>
    rw [act_eq (by simp [hfate]) (collector_none (waits_of_fate hfate)), ha]
    obtain ⟨hsl, hq⟩ := h.slots.stop (mem_of_caller hme) (.refl s.table) (hf _ hfate)
    exact h.unchanged hsl hq
  | group hme hop _ _ _ _ =>
    rw [hp ha (by simp [callFate, waits, hop])]
    refine h.unchanged (h.slots.calm (.trans (.modify fun p => ?_) (.of_steady (.ret _ _ _))))
      fun pid => rfl
    exact ⟨rfl, rfl, id⟩
  | @terminal me _ hme hop _ _ =>
    rw [hp ha (by simp [callFate, waits, hop])]
    have hre : NewsSlots.Calm s.table (s.table.ret me.pid 0) := .of_steady (.ret _ _ _)
    exact h.calm ⟨hre.tasks, rfl, rfl⟩

lemma signal {current : Option ℤ} {x : ℤ × ℤ}
    (hok : ∀ p ∈ s.table.target? x.1, ∀ f ∈ signalFate current p x.2.toNat, NewsFate f s.table p) :
    NewsInvariant (s.signal e current x) := by
  generalize hse : s.table.sendUserSignal e current x.2 x.1 = t'
  have hmo : SignalMoves e current x.2 x.1 s.table t' :=
    hse ▸ s.table.sendUserSignal_moves e current x.2 x.1
  -- a signal that does not reap is not recorded
  have hpl : (∀ p ∈ s.table.target? x.1, signalFate current p x.2.toNat ≠ some .reaped) →
      s.signal e current x = s.moveTo t' := by
    intro hfate
    unfold NewsState.signal
    rw [hse]
    rcases hp : s.table.target? x.1 with _ | p
    · rfl
    · dsimp only
      rw [if_neg (hfate p hp)]
  cases hmo with
  | quiet hfate hs =>
    rw [hpl hfate]
    exact h.calm (.of_steady hs)
  | @reap p t1 hp hfate hm hcode =>
    have heq : s.signal e current x =
        (s.exited p (128 + x.2.toNat)).moveTo (t1.reapTask e p.pid) := by
      unfold NewsState.signal
      rw [hse, hp]
      dsimp only
      rw [if_pos hfate]
    rw [heq]
    exact h.reap (mem_of_target? hp) (target?_alive hp) hm hcode (hok p hp _ hfate)
  | @stop p t1 hp hfate hm =>
    rw [hpl fun q hq => by
      obtain rfl := Option.some.inj (hp.symm.trans hq)
      simp [hfate]]
    obtain ⟨hsl, hqu⟩ := h.slots.stop (mem_of_target? hp) hm (hok p hp _ hfate)
    exact h.unchanged hsl hqu
  | @resume p hp hsig =>
    rw [hpl fun q _ => by
      rw [hsig, signalFate_cont]
      simp]
    obtain ⟨hsl, hqu⟩ := h.slots.resume p.pid
    exact h.unchanged hsl fun pid => by rw [hqu]

end

end NewsInvariant

section Runs

variable {s : NewsState}

lemma newsStep_table (s : NewsState) (a : ProcStep) :
    (newsStep s a).table = procStep s.table a :=
  (foldl_hom table fun _ _ => rfl).symm

lemma newsRun_table (as : List ProcStep) (s : NewsState) :
    (newsRun s as).table = procRun s.table as :=
  (foldl_hom table fun s a => (newsStep_table s a).symm).symm

lemma newsInvariant_signals {current : Option ℤ} : ∀ (xs : List (ℤ × ℤ)) {s : NewsState},
    NewsInvariant s →
    Lib.StepsMeet (fun t x => t.sendUserSignal e current x.2 x.1)
      (fun t x => ∀ p ∈ t.target? x.1, ∀ f ∈ signalFate current p x.2.toNat, NewsFate f t p)
      s.table xs →
    NewsInvariant (xs.foldl (fun s x => s.signal e current x) s)
  | [], _, h, _ => h
  | _ :: xs, _, h, hok => newsInvariant_signals xs (h.signal hok.1) hok.2

lemma newsInvariant_step (h : NewsInvariant s) (hok : NewsKept s a) :
    NewsInvariant (newsStep s a) :=
  newsInvariant_signals _ (h.act hok.1.1 hok.2) hok.1.2

lemma newsInvariant_boot : NewsInvariant bootNews := by
  have hun : ∀ i, ¬ (bootNews.table.slots i).used = true := fun i => by
    simp [bootNews, bootTable, zero]
  refine ⟨⟨by decide, by decide, ?_, ?_, by decide, ?_, ?_⟩, fun p _ _ => rfl⟩
  · exact fun i _ hu => absurd hu (hun i)
  · exact fun i _ j _ hu => absurd hu (hun i)
  · exact fun i _ j _ hu => absurd hu (hun i)
  · exact fun i _ hu => absurd hu (hun i)

lemma newsStep_wait
    (hop : a.op = .inl (.wait noHang untraced ptrOk copyOk)) : newsStep s a = s.act a := by
  have hsig : s.table.signals a = [] := by
    simp only [signals, hop]
    cases s.table.caller a.current <;> rfl
  unfold newsStep
  rw [hsig, foldl_nil]

lemma NewsInvariant.delivered (h : NewsInvariant s) : NewsDelivered s := by
  refine ⟨h.exits, fun a noHang untraced hop me hme hp hne => ?_, h.slots.oneStop, h.slots.stopped⟩
  obtain ⟨hmem, _, _⟩ := caller_running hme
  have he := h.exits me hmem hp
  rcases hn : (s.table.takeParked false me.pid).1 with _ | n
  · rw [takeParked_empty h.slots hn, map_nil, append_nil] at he
    exact absurd he.symm hne
  · obtain ⟨_, hg, hq⟩ := h.act_collect hme hop hn
    rw [newsStep_wait hop, hg, he, hq]
    simp [take_append]

/-- Where parked news finds room, statuses can be stored and no exit leaves a stop notice behind,
exits are delivered once and in order. -/
theorem newsRun_delivered (as : List ProcStep) (h : Lib.StepsMeet newsStep NewsKept bootNews as) :
    NewsDelivered (newsRun bootNews as) :=
  (Lib.foldl_induction (fun _ _ hs ha => newsInvariant_step hs ha) as
    newsInvariant_boot h).delivered

/-- Two children exit, one of them after it has been stopped, and are waited for. -/
theorem newsRun_delivered_two : NewsDelivered (newsRun bootNews
    [.plain 1 (.fork .all), .plain 1 (.fork .all), .plain 2 (.exit 5), .plain 1 (.kill 3 20),
      .plain 1 (.wait false true true true), .plain 1 (.kill 3 9),
      .plain 1 (.wait false true true true)]) :=
  newsRun_delivered _ (by decide)

/-- The child of an `exec` is stopped while its parent is, and killed with the parent back: the stop
notice stays. -/
theorem newsRun_stop_left : ¬ NewsDelivered (newsRun bootNews
    [.plain 1 (.fork .all), .plain 2 (.exec .all false), .plain 1 (.kill 2 20),
      .plain 1 (.kill 3 20), .plain 1 (.kill 2 18), .plain 1 (.kill 3 9)]) := by
  intro h
  exact absurd h.stopped (by decide)

/-- A status that cannot be stored is lost. -/
example : ¬ NewsDelivered (newsRun bootNews
    [.plain 1 (.fork .all), .plain 2 (.exit 5), .plain 1 (.wait false false true false)]) := by
  intro h
  exact absurd h.exits (by decide)

end Runs

end EsdumanOS
