import EsdumanOS.Proofs.Heirs

/-!
# News reaches the parent, unless a pid is given out too early

As long as a new task gets a pid that nothing remembers, every notice is about a child of the task
that collects it. `allocate_pid` looks at the tasks and the zombies only: after the counter has
wrapped it can give out the pid of a dead parent, and the new task collects the child's status.
-/

namespace EsdumanOS

open ProcTable List Function Lineage Lib

variable {t t' : ProcTable} {p q me : Proc} {pid : ℤ} {e : ReapEnv} {a : ProcStep}
  {who : MaySleep} {ok : ℤ → Prop}

/-- Every task and every notice is about the process the record says it is. -/
structure LineInv (s : Lineage) : Prop where
  pids : s.table.pids.Nodup
  who : ∀ x, s.who x < s.births
  tasks : ∀ p ∈ s.table.tasks, s.pidOf (s.who p.pid) = p.pid ∧
    s.maker (s.who p.pid) = s.who p.parentPid
  notes : ∀ i < maxTasks, (s.table.slots i).used = true → s.about i < s.births ∧
    s.pidOf (s.about i) = (s.table.slots i).childPid ∧
    s.maker (s.about i) = s.who (s.table.slots i).parentPid

namespace LineInv

variable {s : Lineage}

lemma heirs (h : LineInv s) (hh : Heirs s.table t') {about : ℕ → ℕ}
    (hn : ∀ i < maxTasks, (t'.slots i).used = true → about i < s.births ∧
      s.pidOf (about i) = (t'.slots i).childPid ∧
      s.maker (about i) = s.who (t'.slots i).parentPid) :
    LineInv { s with table := t', about := about } := by
  refine ⟨h.pids.sublist hh.pids, h.who, fun q hq => ?_, hn⟩
  obtain ⟨p, hp, hpid, hpa⟩ := hh.parents q hq
  rw [hpid, hpa]
  exact h.tasks p hp

lemma keep (h : LineInv s) (hh : Heirs s.table t')
    (hk : ∀ i, (t'.slots i).used = true → t'.slots i = s.table.slots i) :
    LineInv { s with table := t' } := by
  refine h.heirs hh fun i hi hu => ?_
  have heq := hk i hu
  rw [heq] at hu ⊢
  exact h.notes i hi hu

lemma steady (h : LineInv s) (hs : Steady who s.table t') : LineInv { s with table := t' } :=
  h.keep (.of_steady hs) fun i _ => congrFun hs.slots i

lemma noted_eq (s : Lineage) (p : Proc) (t' : ProcTable) : s.noted p t' =
    { s with about := fun i => if Noted p s.table t' i then s.who p.pid else s.about i } := by
  unfold noted Noted
  split_ifs with hs
  · simp [hs]
  · split
    · rename_i i hslot
      have hf : update s.about i (s.who p.pid) = fun j =>
          if t'.slotSeq ≠ s.table.slotSeq ∧ (s.table.dropParkedStop p.pid).newsSlot = some j then
            s.who p.pid
          else s.about j := by
        funext j
        by_cases hi : j = i
        · simp [hi, hs, hslot]
        · simp [hi, Ne.symm hi, hslot]
      rw [hf]
      rfl
    · rename_i hslot
      simp [hslot]

lemma note (h : LineInv s) (hp : p ∈ s.table.tasks) (hh : Heirs s.table t')
    (hk : Parks p s.table t') : LineInv { s.noted p t' with table := t' } := by
  rw [noted_eq]
  refine h.heirs hh fun i hi hu => ?_
  by_cases hn : Noted p s.table t' i
  · obtain ⟨hc, hpa⟩ := hk.new i hu hn
    dsimp only
    rw [if_pos hn, hc, hpa]
    exact ⟨h.who p.pid, h.tasks p hp⟩
  · have heq := hk.old i hu hn
    dsimp only
    rw [if_neg hn]
    rw [heq] at hu ⊢
    exact h.notes i hi hu

/-- The record grows by a process whose pid means no other, so what is on record stays. -/
lemma adopt (h : LineInv s) (hme : me ∈ s.table.tasks) {next : ℤ}
    (hpids : pid ∉ s.table.pids) (hun : ¬ s.table.Names pid) :
    LineInv { s.born pid me with table := s.table.adopt pid next me } := by
  have hwho : ∀ {x}, x ≠ pid → update s.who pid s.births x = s.who x :=
    fun hx => update_of_ne hx _ _
  have hself : ∀ {p}, p ∈ s.table.tasks → p.pid ≠ pid :=
    fun hp heq => hpids (heq ▸ mem_map_of_mem hp)
  have hpi : ∀ {k}, k < s.births → update s.pidOf s.births pid k = s.pidOf k :=
    fun hk => update_of_ne hk.ne _ _
  have hm : ∀ {k}, k < s.births → update s.maker s.births (s.who me.pid) k = s.maker k :=
    fun hk => update_of_ne hk.ne _ _
  refine ⟨s.table.adopt_nodup h.pids hpids, fun x => ?_, fun p hp => ?_, fun i hi hu => ?_⟩
  · simp only [born]
    by_cases hx : x = pid
    · rw [hx, update_self]
      exact Nat.lt_succ_self _
    · rw [update_of_ne hx]
      exact (h.who x).trans (Nat.lt_succ_self _)
  · simp only [born]
    rcases mem_append.1 hp with hp | hp
    · rw [hwho (hself hp), hwho fun heq => hun (.inl ⟨p, hp, heq⟩), hpi (h.who p.pid),
        hm (h.who p.pid)]
      exact h.tasks p hp
    · -- the new task itself
      rw [mem_singleton.1 hp]
      have hs : update s.who pid s.births (newProc pid me).pid = s.births := update_self _ _ _
      have hpa : update s.who pid s.births (newProc pid me).parentPid = s.who me.pid :=
        hwho (hself hme)
      rw [hs, hpa, update_self, update_self]
      exact ⟨rfl, rfl⟩
  · simp only [born]
    obtain ⟨hlt, hc, hmade⟩ := h.notes i hi hu
    rw [hpi hlt, hm hlt]
    refine ⟨hlt.trans (Nat.lt_succ_self _), hc, hmade.trans ?_⟩
    exact (hwho fun heq => hun (.inr ⟨i, hi, hu, .inr heq⟩)).symm

lemma act_plain (hfate : s.table.callFate a = none) (hmade : s.table.created a = none) :
    s.act a = { s with table := s.table.act a } := by
  unfold Lineage.act
  rw [hfate, hmade]

lemma created_of_fate {x : Proc × TaskFate} (h : t.callFate a = some x) : t.created a = none := by
  unfold created
  split
  · next hop _ => simp [callFate, hop] at h
  · next hop _ => simp [callFate, hop] at h
  · rfl

lemma act_noted {f : TaskFate} (hfate : s.table.callFate a = some (me, f)) :
    s.act a = { s.noted me (s.table.act a) with table := s.table.act a } := by
  unfold Lineage.act
  rw [hfate, created_of_fate hfate]

lemma act_born (hfate : s.table.callFate a = none) (hmade : s.table.created a = some (pid, me)) :
    s.act a = { s.born pid me with table := s.table.act a } := by
  unfold Lineage.act
  rw [hfate, hmade]

lemma created_some {x : ℤ × Proc} (h : t.created a = some x) :
    ((∃ m, a.op = .inl (.fork m)) ∨ ∃ m b, a.op = .inl (.exec m b)) ∧
      ∃ next, allocatePid t.held (t.held.length + 1) t.nextPid = some (x.1, next) := by
  have hla : ∀ {memory : Memory} {creator : Proc}, t.launched memory creator = some x →
      ∃ next, allocatePid t.held (t.held.length + 1) t.nextPid = some (x.1, next) := by
    intro memory creator hl
    unfold launched at hl
    split_ifs at hl
    rcases t.createProcess_cases memory creator with ⟨next, hc⟩ | ⟨_, pid, next, ha, -, hc⟩
    · simp [hc] at hl
    · rw [hc] at hl
      cases hl
      exact ⟨next, ha⟩
  unfold created at h
  split at h
  · next hop _ => exact ⟨.inl ⟨_, hop⟩, hla h⟩
  · next hop _ => exact ⟨.inr ⟨_, _, hop⟩, hla h⟩
  · cases h

lemma named (h : t.NamedAre ok) (hn : t.Names pid) : ok pid := by
  rcases hn with ⟨p, hp, rfl⟩ | ⟨i, hi, hu, rfl | rfl⟩
  · exact h.1 p hp
  · exact (h.2 i hi hu).1
  · exact (h.2 i hi hu).2

/-- A pid that is named is held, so that `allocate_pid` passes it over, or it is behind the counter,
whose pid is then free. -/
lemma unnamed (h : CreatesClear s a) {x : ℤ × Proc} (hx : s.table.created a = some x) :
    ¬ s.table.Names x.1 := by
  obtain ⟨hop, next, ha⟩ := created_some hx
  have hcl : s.table.CounterClear := by
    unfold CreatesClear at h
    rcases hop with ⟨m, hm⟩ | ⟨m, b, hm⟩ <;> rw [hm] at h <;> exact h
  intro hn
  rcases hcl with hc | ⟨hz, hm, hheld, hc⟩
  · exact (allocatePid_fresh ha).2 (named hc hn (allocatePid_fresh ha).1)
  · have hnot : s.table.nextPid ∉ s.table.held := fun hi => lt_irrefl _ (hheld _ hi)
    have hlow : ¬ (s.table.nextPid < 0 ∨ s.table.nextPid = maxPid) := by omega
    unfold allocatePid at ha
    rw [if_neg hlow, if_neg hnot] at ha
    exact lt_irrefl _ ((Prod.mk.inj (Option.some.inj ha)).1 ▸ named hc hn)

lemma act (h : LineInv s) (hok : CreatesClear s a) : LineInv (s.act a) := by
  generalize ha : s.table.act a = t'
  have hmo : Moves s.table a t' := ha ▸ s.table.act_moves a h.pids
  cases hmo with
  | steady hop _ hs =>
    rw [act_plain hop.2.1 hop.1, ha]
    exact h.steady hs
  | @wait me _ hme _ _ _ _ hop htook hs =>
    rw [act_plain (by simp [callFate, hop]) (by simp [created, hop]), ha]
    rcases htook with rfl | ⟨stopped, rfl⟩
    · exact h.steady hs
    · have ht := h.keep (.takeParked s.table stopped me.pid) fun i hu => takeParked_kept hu
      exact ht.steady hs
  | create hme hop hfresh hs hmade =>
    have hfate : s.table.callFate a = none := by
      rcases hop with ⟨b, hb⟩ | ⟨b, c, hb⟩ <;> simp [callFate, hb]
    rw [act_born hfate hmade, ha]
    exact (h.adopt (mem_of_caller hme) hfresh (unnamed hok hmade)).steady hs
  | reap hme hfate hm _ =>
    rw [act_noted hfate, ha]
    exact h.note (mem_of_caller hme) ((Heirs.of_steady hm.steady).trans (.reapTask _ _ _))
      (.reap h.pids (mem_of_caller hme) hm)
  | stop hme hfate sig =>
    rw [act_noted hfate, ha]
    exact h.note (mem_of_caller hme) (.stopTask _ _ _) (.stop h.pids (mem_of_caller hme) (.refl _))
  | @group me _ _ pid' pgid' hme hop _ _ _ _ =>
    rw [act_plain (by simp [callFate, hop]) (by simp [created, hop]), ha]
    have hmv : Heirs s.table (s.table.modify pid' fun p => { p with pgid := pgid' }) :=
      .modify fun p => ⟨rfl, rfl⟩
    exact h.keep (hmv.trans (.of_steady (.ret _ _ _))) fun _ _ => rfl
  | @terminal me _ hme hop _ _ =>
    rw [act_plain (by simp [callFate, hop]) (by simp [created, hop]), ha]
    have hr : Heirs s.table (s.table.ret me.pid 0) := .of_steady (.ret _ _ _)
    exact h.keep (hr.trans (.of_eq rfl)) fun _ _ => rfl

lemma signal (h : LineInv s) (current : Option ℤ) (x : ℤ × ℤ) :
    LineInv (s.signal e current x) := by
  generalize hse : s.table.sendUserSignal e current x.2 x.1 = t'
  have hmo : SignalMoves e current x.2 x.1 s.table t' :=
    hse ▸ s.table.sendUserSignal_moves e current x.2 x.1
  -- a signal that parks nothing leaves the record alone
  have hpl : t'.slotSeq = s.table.slotSeq → s.signal e current x = { s with table := t' } := by
    intro hsq
    unfold Lineage.signal
    rw [hse]
    rcases hp : s.table.target? x.1 with _ | p
    · rfl
    · simp [noted, hsq]
  have hn : ∀ {p}, s.table.target? x.1 = some p →
      s.signal e current x = { s.noted p t' with table := t' } := by
    intro p hp
    unfold Lineage.signal
    rw [hse, hp]
  cases hmo with
  | quiet _ hs =>
    rw [hpl hs.slotSeq]
    exact h.steady hs
  | reap hp _ hm _ =>
    rw [hn hp]
    exact h.note (mem_of_target? hp) ((Heirs.of_steady hm.steady).trans (.reapTask _ _ _))
      (.reap h.pids (mem_of_target? hp) hm)
  | stop hp _ hm =>
    rw [hn hp]
    exact h.note (mem_of_target? hp) ((Heirs.of_steady hm.steady).trans (.stopTask _ _ _))
      (.stop h.pids (mem_of_target? hp) hm)
  | resume hp _ =>
    rw [hpl continueTask_slotSeq]
    exact h.keep (.continueTask _ _) fun i hu => continueTask_kept hu

lemma step (h : LineInv s) (hok : CreatesClear s a) : LineInv (lineageStep s a) :=
  @foldl_invariant _ _ (fun s x => Lineage.signal s a.env a.current x) LineInv
    (fun _ x hs => hs.signal a.current x) (s.table.signals a) _ (h.act hok)

lemma boot : LineInv bootLineage := by
  have hun : ∀ i, ¬ (bootLineage.table.slots i).used = true := fun i => by
    simp [bootLineage, bootTable, ExitSlot.zero]
  refine ⟨by decide, fun x => ?_, by decide, fun i _ hu => absurd hu (hun i)⟩
  simp only [bootLineage]
  split <;> decide

end LineInv

lemma parkedSlot_some {stopped : Bool} {parent : ℤ} {i : ℕ}
    (h : t.parkedSlot stopped parent = some i) : i < maxTasks ∧ (t.slots i).used = true ∧
      (t.slots i).stopped = stopped ∧ (t.slots i).parentPid = parent := by
  obtain ⟨hi, ht⟩ := bestIdx_some h
  simp only [Bool.and_eq_true, decide_eq_true_eq, beq_iff_eq] at ht
  exact ⟨hi, ht.1.1.1, ht.1.1.2, ht.1.2⟩

lemma takeParked_eq (t : ProcTable) (stopped : Bool) (parent : ℤ) :
    (t.takeParked stopped parent).1 = (t.parkedSlot stopped parent).map t.slots := by
  unfold takeParked parkedSlot
  split
  · next h => rw [h, Option.map_none]
  · next i h => rw [h, Option.map_some]

lemma sysWait_returned {noHang untraced ptrOk copyOk : Bool}
    (hq : (t.sysWait me noHang untraced ptrOk copyOk).task? me.pid = some q)
    (hru : q.state = .running) (hp : 0 < q.eax) :
    ptrOk = true ∧ copyOk = true ∧ ∃ i, (t.parkedSlot false me.pid).or
      (if untraced then t.parkedSlot true me.pid else none) = some i ∧
        (q.eax, q.status) = (t.slots i).report := by
  obtain ⟨hmem, hpid⟩ := mem_of_task? hq
  -- every other way out of `wait` leaves a number that is not positive, or the caller asleep
  have hre : ∀ {u : ProcTable} {value : ℤ}, value ≤ 0 → q ∉ (u.ret me.pid value).tasks := by
    intro u value hv hi
    obtain ⟨p, rfl⟩ := mem_modify hi hpid
    dsimp only at hp
    omega
  have hr : ∀ {u : ProcTable} {child status : ℤ},
      q ∈ (u.report me copyOk child status).tasks →
        copyOk = true ∧ (q.eax, q.status) = (child, status) := by
    intro u child status hi
    unfold report at hi
    split_ifs at hi with hc
    · obtain ⟨p, rfl⟩ := mem_modify hi hpid
      exact ⟨hc, rfl⟩
    · exact absurd hi (hre (by decide))
  unfold sysWait at hmem
  cases ptrOk with
  | false => exact absurd hmem (hre (by decide))
  | true =>
    simp only [Bool.not_true, Bool.false_eq_true, if_false, takeParked_eq] at hmem
    rcases he : t.parkedSlot false me.pid with _ | i
    · rcases hs : (if untraced then t.parkedSlot true me.pid else none) with _ | i
      · -- nothing is parked
        have hn : (if untraced then t.takeParked true me.pid else (none, t)).1 = none := by
          cases untraced with
          | false => rfl
          | true => simpa [takeParked_eq] using hs
        rw [he, hn] at hmem
        simp only [Option.map_none] at hmem
        split_ifs at hmem
        · exact absurd hmem (hre (by decide))
        · exact absurd hmem (hre le_rfl)
        · obtain ⟨p, rfl⟩ := mem_modify hmem hpid
          cases hru
      · cases untraced with
        | false => simp at hs
        | true =>
          simp only [if_true] at hs
          simp only [he, Option.map_none, if_true, takeParked_eq, hs, Option.map_some] at hmem
          obtain ⟨hc, heq⟩ := hr hmem
          refine ⟨rfl, hc, i, by simp, heq.trans ?_⟩
          simp [ExitSlot.report, (parkedSlot_some hs).2.2.1]
    · rw [he] at hmem
      obtain ⟨hc, heq⟩ := hr hmem
      refine ⟨rfl, hc, i, by simp, heq.trans ?_⟩
      simp [ExitSlot.report, (parkedSlot_some he).2.2.1]

section Runs

variable {s : Lineage}

lemma lineageStep_table (s : Lineage) (a : ProcStep) :
    (lineageStep s a).table = procStep s.table a :=
  (foldl_hom table fun _ _ => rfl).symm

lemma lineageRun_table (s : Lineage) (as : List ProcStep) :
    (lineageRun s as).table = procRun s.table as :=
  (foldl_hom table fun s a => (lineageStep_table s a).symm).symm

lemma LineInv.newsOwn (h : LineInv s) (hok : CreatesClear s a) : NewsOwn s a := by
  refine ⟨fun x hx hre => ?_, fun noHang untraced ptrOk copyOk hop me hme q hq hru hpo => ?_⟩
  · obtain ⟨_, next, ha⟩ := LineInv.created_some hx
    exact hre.elim (allocatePid_fresh ha).2 (LineInv.unnamed hok hx)
  · have htable : (lineageStep s a).table = s.table.sysWait me noHang untraced ptrOk copyOk := by
      have hc : s.table.caller a.current = some me := hme
      rw [lineageStep_table]
      simp [procStep, ProcTable.act, signals, sendAll, hop, hc]
    rw [htable] at hq
    obtain ⟨rfl, rfl, i, hslot, hr⟩ := sysWait_returned hq hru hpo
    have hf : i < maxTasks ∧ (s.table.slots i).used = true ∧
        (s.table.slots i).parentPid = me.pid := by
      rcases Option.or_eq_some_iff.1 hslot with he | ⟨_, hs⟩
      · obtain ⟨hi, hu, _, hp⟩ := parkedSlot_some he
        exact ⟨hi, hu, hp⟩
      · split_ifs at hs
        obtain ⟨hi, hu, _, hp⟩ := parkedSlot_some hs
        exact ⟨hi, hu, hp⟩
    obtain ⟨hi, hu, hp⟩ := hf
    obtain ⟨_, hch, hmade⟩ := h.notes i hi hu
    have hea : q.eax = (s.table.slots i).childPid := (Prod.mk.inj hr).1
    refine ⟨i, ?_, hr, hch.trans hea.symm, hp ▸ hmade⟩
    have hc : s.table.caller a.current = some me := hme
    simp [reported, hop, hc, hslot]

/-- Where `fork` and `exec` are called with every named pid held or behind the counter, pids are
fresh and `wait` returns news of the caller's own children. -/
theorem lineageRun_newsOwn (as : List ProcStep)
    (h : StepsMeet lineageStep CreatesClear bootLineage as) :
    StepsMeet lineageStep NewsOwn bootLineage as :=
  .conclude (fun _ _ => LineInv.step) (fun _ _ => LineInv.newsOwn) LineInv.boot h

/-- A grandchild outlives its parent, and `init` collects its own child. -/
theorem lineageRun_newsOwn_three : StepsMeet lineageStep NewsOwn bootLineage
    [.plain 1 (.fork .all), .plain 2 (.fork .all), .plain 2 (.exit 5),
      .plain 1 (.wait false false true true), .plain 1 (.fork .all), .plain 3 (.exit 7),
      .plain 4 (.wait false false true true)] :=
  lineageRun_newsOwn _ (by decide)

end Runs

section Wrap

variable {s : Lineage} {n : ℤ}

def orphan : Proc :=
  ⟨3, 2, 0, 1, .running, .none, .none, 0, 0, 0, 0, fun _ => false, fun _ => .default, false,
    none⟩

/-- Task 3 has outlived its parent, and `init` has been refused a program. -/
def orphanTable (n : ℤ) : ProcTable :=
  { bootTable with tasks := (bootTable.ret 1 eNoexec).tasks ++ [orphan], nextPid := n }

/-- The memory does not go to the descriptor table of a program. -/
def refusedExec : ProcStep := .plain 1 (.exec .task true)

lemma orphan_pids : (orphanTable n).held = [0, 1, 3] := rfl

lemma orphan_clear (hn : 4 ≤ n) (hm : n < maxPid) : (orphanTable n).CounterClear := by
  have hnext : (orphanTable n).nextPid = n := rfl
  refine .inr ⟨?_, hm.ne, fun pid hp => ?_, fun p hp => ?_, fun i _ hu => by cases hu⟩
  · omega
  · simp only [orphan_pids, mem_cons, not_mem_nil, or_false] at hp
    omega
  · have hp : p.parentPid ∈ [-1, 0, 2] := mem_map_of_mem (f := Proc.parentPid) hp
    simp only [mem_cons, not_mem_nil, or_false] at hp
    omega

lemma orphan_refused (hn : 4 ≤ n) (hm : n < maxPid) :
    procStep (orphanTable n) refusedExec = orphanTable (n + 1) := by
  have hnext : (orphanTable n).nextPid = n := rfl
  have hlen : (orphanTable n).held.length + 1 = 4 := rfl
  have hc : ¬ (n < 0 ∨ n = maxPid) := by omega
  have hh : n ∉ (orphanTable n).held := by
    simp only [orphan_pids, mem_cons, not_mem_nil, or_false]
    omega
  have ha : allocatePid (orphanTable n).held 4 n = some (n, n + 1) := by
    unfold allocatePid
    rw [if_neg hc]
    exact if_neg hh
  have hact : procStep (orphanTable n) refusedExec =
      (orphanTable n).sysExec .task true ((orphanTable n).tasks.getD 1 orphan) := rfl
  have hnone : (orphanTable n).createProcess .task ((orphanTable n).tasks.getD 1 orphan) =
      (none, orphanTable (n + 1)) := by
    unfold createProcess
    rw [hnext, hlen, ha]
    rfl
  rw [hact, sysExec, hnone]
  rfl

/-- A refused program uses up a pid, so that the counter gets to its end. -/
lemma exists_adrift (k : ℕ) (hk : 5 + (k : ℤ) ≤ maxPid) : ∃ as,
    StepsMeet lineageStep CreatesClear bootLineage as ∧
      (lineageRun bootLineage as).table = orphanTable (5 + k) := by
  induction k with
  | zero =>
    exact ⟨[.plain 1 (.exec .all false), .plain 2 (.fork .all), .plain 2 (.exit 0),
      ⟨⟨false, none⟩, none, .inr (.reapZombies 0)⟩, refusedExec], by decide, rfl⟩
  | succ k ih =>
    obtain ⟨as, hmeet, ht⟩ := ih (by omega)
    have hc : (lineageRun bootLineage as).table.CounterClear := by
      rw [ht]
      exact orphan_clear (by omega) (by omega)
    refine ⟨as ++ [refusedExec], (StepsMeet.append as).2 ⟨hmeet, hc, trivial⟩, ?_⟩
    have hr : lineageRun bootLineage (as ++ [refusedExec]) =
        lineageStep (lineageRun bootLineage as) refusedExec := foldl_append
    rw [hr, lineageStep_table, ht, orphan_refused (by omega) (by omega)]
    push_cast
    rw [add_assoc]

lemma LineInv.wrap (h : LineInv s) (ht : s.table = orphanTable maxPid) :
    let s' := lineageStep s (.plain 1 (.exec .all true))
    s'.table = procStep (orphanTable maxPid) (.plain 1 (.exec .all true)) ∧
      s'.who 2 = s.births ∧ s'.maker (s'.who 3) < s.births := by
  have ha : lineageStep s (.plain 1 (.exec .all true)) = s.act (.plain 1 (.exec .all true)) := by
    unfold lineageStep
    rw [ht]
    rfl
  obtain ⟨me, hmade⟩ : ∃ me, s.table.created (.plain 1 (.exec .all true)) = some (2, me) := by
    rw [ht]
    exact ⟨_, rfl⟩
  have hbo := LineInv.act_born (s := s) (by simp [callFate, ProcStep.plain]) hmade
  -- the parent of task 3 is the process that had pid 2
  have hma : s.maker (s.who 3) = s.who 2 := (h.tasks orphan (by simp [ht, orphanTable])).2
  refine ⟨by rw [lineageStep_table, ht], ?_, ?_⟩
  · simp [ha, hbo, born]
  · simp [ha, hbo, born, (h.who 3).ne, hma, h.who 2]

lemma orphan_news (ht : s.table =
    procStep (orphanTable maxPid) (.plain 1 (.exec .all true))) :
    let s' := lineageStep s (.plain 3 (.exit 0))
    s'.table = procRun (orphanTable maxPid) [.plain 1 (.exec .all true), .plain 3 (.exit 0)] ∧
      s'.who = s.who ∧ s'.maker = s.maker ∧ s'.about 0 = s.who 3 := by
  have ha : lineageStep s (.plain 3 (.exit 0)) = s.act (.plain 3 (.exit 0)) := by
    unfold lineageStep
    rw [ht]
    rfl
  obtain ⟨me, hfate, hpid⟩ : ∃ me, s.table.callFate (.plain 3 (.exit 0)) = some (me, .reaped) ∧
      me.pid = 3 := by
    rw [ht]
    exact ⟨_, rfl, rfl⟩
  have hn : Noted me s.table (s.table.act (.plain 3 (.exit 0))) 0 := by
    unfold Noted
    rw [hpid, ht]
    decide
  rw [ha, LineInv.act_noted hfate, LineInv.noted_eq]
  refine ⟨?_, rfl, rfl, ?_⟩
  · rw [ht]
    rfl
  · dsimp only
    rw [if_pos hn, hpid]

def wrappedTable : ProcTable :=
  procRun (orphanTable maxPid) [.plain 1 (.exec .all true), .plain 3 (.exit 0)]

lemma wrappedTable_wait : ∃ me q : Proc,
    let a := .plain 2 (.wait false false true true)
    wrappedTable.caller a.current = some me ∧ (procStep wrappedTable a).task? me.pid = some q ∧
      wrappedTable.reported a = some (me, 0) ∧ me.pid = 2 ∧ q.state = .running ∧ q.eax = 3 :=
  ⟨_, _, rfl, rfl, rfl, rfl, rfl, rfl⟩

/-- After the wrap, a new task waits and is given the status of a process that another one
created. -/
theorem lineageRun_wrapped : ∃ (as : List ProcStep) (me q : Proc) (i : ℕ),
    let s := lineageRun bootLineage as
    let a := .plain 2 (.wait false false true true)
    s.table.caller a.current = some me ∧ (lineageStep s a).table.task? me.pid = some q ∧
      s.table.reported a = some (me, i) ∧ q.eax = 3 ∧ s.maker (s.about i) ≠ s.who me.pid ∧
      ¬ StepsMeet lineageStep NewsOwn bootLineage (as ++ [a]) := by
  obtain ⟨as, hmeet, ht⟩ := exists_adrift 0x7FFFFFFA (by decide)
  have hinv : LineInv (lineageRun bootLineage as) :=
    foldl_induction (fun _ _ => .step) as .boot hmeet
  obtain ⟨ht₁, hnew, hmaker⟩ := hinv.wrap ht
  obtain ⟨ht₂, hwho₂, hmaker₂, habout⟩ := orphan_news ht₁
  obtain ⟨me, q, hcall, htask, hrep, hpid, hstate, heax⟩ := wrappedTable_wait
  have hrun : lineageRun bootLineage (as ++ [.plain 1 (.exec .all true), .plain 3 (.exit 0)]) =
      lineageStep (lineageStep (lineageRun bootLineage as) (.plain 1 (.exec .all true)))
        (.plain 3 (.exit 0)) := foldl_append
  generalize hs : lineageStep (lineageStep (lineageRun bootLineage as) (.plain 1 (.exec .all true)))
    (.plain 3 (.exit 0)) = s at *
  have htable : s.table = wrappedTable := ht₂
  -- process 2 created task 3, and the task that waits is a later one
  have hother : s.maker (s.about 0) ≠ s.who me.pid := by
    rw [habout, hmaker₂, hpid, hwho₂, hnew]
    exact hmaker.ne
  refine ⟨as ++ [.plain 1 (.exec .all true), .plain 3 (.exit 0)], me, q, 0, ?_⟩
  dsimp only
  rw [hrun, lineageStep_table, htable]
  refine ⟨hcall, htask, hrep, heax, hother, fun hall => ?_⟩
  obtain ⟨hown, _⟩ := ((StepsMeet.append _).1 hall).2
  have hown' : NewsOwn s (.plain 2 (.wait false false true true)) := hrun ▸ hown
  obtain ⟨i, hi, _, _, hmade⟩ := hown'.own false false true true rfl me (htable ▸ hcall) q
    (by rw [lineageStep_table, htable]; exact htask) hstate (by omega)
  rw [htable, hrep] at hi
  obtain ⟨_, rfl⟩ := Prod.mk.inj (Option.some.inj hi)
  exact hother hmade

end Wrap

end EsdumanOS
