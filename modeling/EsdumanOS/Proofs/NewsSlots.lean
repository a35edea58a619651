import EsdumanOS.ChildNews
import EsdumanOS.Proofs.Moves

/-!
# The table of notices

The parked exits of a parent are a queue by their sequence numbers: `park_child_news` puts one at
the back, `take_parked_status` takes the front. A stop notice is dropped when its task leaves
`TASK_STOPPED`, except by `reap_task` for a parent inside `exec`.
-/

namespace EsdumanOS

open ProcTable List Function ExitSlot Proc Lib

variable {t t' t1 u : ProcTable} {p q v me : Proc} {pid parent child code status : ℤ}
  {e : ReapEnv} {a : ProcStep} {who : MaySleep} {stopped : Bool} {n : ExitSlot}
  {slots : ℕ → ExitSlot} {test : ExitSlot → Bool} {f : Proc → Proc}

/-- Sequence numbers are given out once, and the stop notices are about stopped tasks, one each. -/
structure NewsSlots (t : ProcTable) : Prop where
  pids : t.pids.Nodup
  parents : ∀ p ∈ t.tasks, p.parentPid ≠ p.pid
  seqs : ∀ i < maxTasks, (t.slots i).used = true → (t.slots i).seq < t.slotSeq
  distinct : ∀ i < maxTasks, ∀ j < maxTasks, (t.slots i).used = true → (t.slots j).used = true →
    (t.slots i).seq = (t.slots j).seq → i = j
  bound : t.slotSeq ≤ 0xFFFFFFFF
  oneStop : ∀ i < maxTasks, ∀ j < maxTasks, (t.slots i).used = true → (t.slots i).stopped = true →
    (t.slots j).used = true → (t.slots j).stopped = true →
    (t.slots i).childPid = (t.slots j).childPid → i = j
  stopped : ∀ i < maxTasks, (t.slots i).used = true → (t.slots i).stopped = true →
    ∃ p ∈ t.tasks, p.pid = (t.slots i).childPid ∧ p.state = .stopped

lemma exitFor_iff : n.exitFor pid = true ↔
    n.used = true ∧ n.stopped = false ∧ n.parentPid = pid := by
  simp [exitFor, and_assoc]

lemma exitFor_unused (h : n.used = false) : n.exitFor pid = false := by
  simp [exitFor, h]

lemma NewsSlots.differ (h : NewsSlots t) (pid : ℤ) :
    TicketsDiffer seq (exitFor pid) maxTasks t.slots :=
  fun i hi j hj hit hjt heq => h.distinct i hi j hj (exitFor_iff.1 hit).1 (exitFor_iff.1 hjt).1 heq

lemma exitQueue_eq (h : t'.slots = t.slots) : t'.exitQueue pid = t.exitQueue pid := by
  unfold exitQueue
  rw [h]

lemma exitQueue_clear (h : ∀ i < maxTasks, t'.slots i = t.slots i ∨
    (t'.slots i).used = false ∧ (t.slots i).exitFor pid = false) :
    t'.exitQueue pid = t.exitQueue pid := by
  refine queue_congr fun i hi => ?_
  rcases h i hi with heq | ⟨hu, he⟩
  · exact .inl heq
  · exact .inr ⟨exitFor_unused hu, he⟩

section

variable (hsmall : ∀ j < maxTasks, test (slots j) = true → (slots j).seq < 0xFFFFFFFF)
include hsmall

lemma oldestSlot_some {i : ℕ}
    (h : oldestSlot slots test = some i) : i < maxTasks ∧ test (slots i) = true ∧
      ∀ j < maxTasks, test (slots j) = true → (slots i).seq ≤ (slots j).seq := by
  obtain ⟨hi, hp⟩ := bestIdx_some h
  simp only [Bool.and_eq_true, decide_eq_true_eq] at hp
  refine ⟨hi, hp.1, fun j hj hjt => ?_⟩
  have hjs := hsmall j hj hjt
  have hb := bestIdx_best h j hj (by simp [hjt, hjs])
  omega

lemma oldestSlot_none
    (h : oldestSlot slots test = none) : ∀ j < maxTasks, test (slots j) = false := by
  intro j hj
  by_contra hne
  have hjt : test (slots j) = true := by simpa using hne
  have := bestIdx_eq_none h j hj
  simp [hjt, hsmall j hj hjt] at this

end

lemma NewsSlots.small (h : NewsSlots t) {i : ℕ} (hi : i < maxTasks)
    (hu : (t.slots i).used = true) : (t.slots i).seq < 0xFFFFFFFF :=
  (h.seqs i hi hu).trans_le h.bound

lemma takeParked_exit (t : ProcTable) (pid : ℤ) : t.takeParked false pid =
    match oldestSlot t.slots (exitFor pid) with
    | none => (none, t)
    | some i => (some (t.slots i),
        { t with slots := update t.slots i { t.slots i with used := false } }) :=
  rfl

lemma NewsSlots.exit_small (h : NewsSlots t) (pid : ℤ) :
    ∀ j < maxTasks, (t.slots j).exitFor pid = true → (t.slots j).seq < 0xFFFFFFFF :=
  fun _ hj hjt => h.small hj (exitFor_iff.1 hjt).1

lemma takeParked_front (h : NewsSlots t) (ht : (t.takeParked false pid).1 = some n) :
    t.exitQueue pid = n :: (t.takeParked false pid).2.exitQueue pid := by
  rw [takeParked_exit] at ht ⊢
  rcases ho : oldestSlot t.slots (exitFor pid) with _ | i
  · simp [ho] at ht
  · rw [ho] at ht
    obtain ⟨hi, hit, hf⟩ := oldestSlot_some (h.exit_small pid) ho
    obtain rfl := Option.some.inj ht
    exact queue_take (h.differ pid) hi hit (exitFor_unused rfl) hf

lemma takeParked_empty (h : NewsSlots t) (ht : (t.takeParked false pid).1 = none) :
    t.exitQueue pid = [] := by
  rw [takeParked_exit] at ht
  rcases ho : oldestSlot t.slots (exitFor pid) with _ | i
  · rw [eq_nil_iff_forall_not_mem]
    intro n hn
    obtain ⟨j, hj, hjt, _⟩ := mem_queue.1 hn
    rw [oldestSlot_none (h.exit_small pid) ho j hj] at hjt
    cases hjt
  · simp [ho] at ht

lemma parkChildNews_free (hr : t.HasRoom) (parent child code : ℤ) (stopped : Bool) :
    ∃ i < maxTasks, (t.slots i).used = false ∧
      (t.parkChildNews parent child code stopped).slots =
        update t.slots i ⟨parent, child, code, t.slotSeq, true, stopped⟩ := by
  obtain ⟨⟨j, hj, hf⟩, _⟩ := hr
  have hs : (firstIdx (fun i => !(t.slots i).used) maxTasks).isSome :=
    firstIdx_isSome.2 ⟨j, hj, by simp [hf]⟩
  obtain ⟨i, hi⟩ := Option.isSome_iff_exists.1 hs
  obtain ⟨hu, hlt, _⟩ := firstIdx_eq_some.1 hi
  exact ⟨i, hlt, by simpa using hu, by simp [parkChildNews, newsSlot, hi]⟩

lemma parkChildNews_seq (hr : t.HasRoom) :
    (t.parkChildNews parent child code stopped).slotSeq = t.slotSeq + 1 := by
  have := hr.2
  simp only [parkChildNews, u32]
  omega

lemma exitQueue_park (h : NewsSlots t) (hr : t.HasRoom) :
    ((t.parkChildNews parent child code stopped).exitQueue pid).map news =
      (t.exitQueue pid).map news ++
        if stopped = false ∧ parent = pid then [(child, code)] else [] := by
  obtain ⟨i, hi, hf, hs⟩ := parkChildNews_free hr parent child code stopped
  unfold exitQueue
  rw [hs]
  split_ifs with he
  · rw [queue_put (h.differ pid) hi (exitFor_unused hf) (exitFor_iff.2 ⟨rfl, he⟩)]
    · simp [news]
    · exact fun j hj hjt => h.seqs j hj (exitFor_iff.1 hjt).1
  · rw [append_nil]
    refine congrArg _ (queue_congr fun j _ => ?_)
    by_cases hji : j = i
    · subst hji
      refine .inr ⟨?_, exitFor_unused hf⟩
      rw [update_self]
      exact Bool.eq_false_iff.2 fun hit => he (exitFor_iff.1 hit).2
    · exact .inl (update_of_ne hji _ _)

def SameWaits (v : Proc) (t t' : ProcTable) : Prop :=
  Forall₂ (fun p q => awaits v q = awaits v p ∧ (awaits v p = true → q.waitReason = p.waitReason))
    t.tasks t'.tasks

lemma SameWaits.refl (v : Proc) (t : ProcTable) : SameWaits v t t :=
  related_refl (fun _ => ⟨rfl, fun _ => rfl⟩) t.tasks

lemma SameWaits.trans (h : SameWaits v t t1) (h' : SameWaits v t1 t') : SameWaits v t t' :=
  related_trans (fun _ _ _ hab hb => ⟨hb.1.trans hab.1,
    fun ha => (hb.2 (hab.1.trans ha)).trans (hab.2 ha)⟩) h h'

lemma SameWaits.of_marks (h : Marks t t') : SameWaits v t t' :=
  h.tasks.imp fun p q hq => by
    rw [hq]
    exact ⟨rfl, fun _ => rfl⟩

lemma SameWaits.letGo (v : Proc) (t : ProcTable) (e : ReapEnv) : SameWaits v t (t.letGo e) := by
  -- nobody who waits for a mutex or a message waits for a child
  have hro : ∀ (reason : WaitReason) (p : Proc), reason = .mutex ∨ reason = .ipc →
      ∀ q, q = (if p.state = .waiting ∧ p.waitReason = reason then wake p else p) →
        awaits v q = awaits v p ∧ (awaits v p = true → q.waitReason = p.waitReason) := by
    intro reason p hr q hq
    split_ifs at hq with hw
    · rcases hr with rfl | rfl <;> simp [hq, awaits, wake, hw.2]
    · simp [hq]
  have hm : ∀ pid, SameWaits v t (t.wakeTask pid .mutex) := by
    refine fun pid => related_map (fun p => ?_) t.tasks
    split_ifs
    · exact hro .mutex p (.inl rfl) _ rfl
    · exact ⟨rfl, fun _ => rfl⟩
  have hi : ∀ t, SameWaits v t (if e.dropsPipe then t.wakeupTasks .ipc else t) := by
    intro t
    split_ifs
    · exact related_map (fun p => hro .ipc p (.inr rfl) _ rfl) _
    · exact .refl v t
  unfold ProcTable.letGo
  rcases e.mutexWaiter with _ | pid
  · exact hi t
  · exact (hm pid).trans (hi _)

lemma SameWaits.mark (hf : ∀ p, (f p).state ≠ .waiting)
    (hp : v.parentPid ≠ v.pid) : SameWaits v t (t.modify v.pid f) := by
  refine related_map (fun p => ?_) t.tasks
  split_ifs with hpid
  · simp [awaits, hpid, hp.symm, hf p]
  · exact ⟨rfl, fun _ => rfl⟩

lemma wokenParent_reason (h : SameWaits v t t')
    (hf : ∀ p, (f p).state ≠ .waiting) (hp : v.parentPid ≠ v.pid) :
    (t'.wokenParent f v).map waitReason = (t.waitingParent v).map waitReason :=
  related_find (h.trans (.mark hf hp)) fun _ _ hR => hR

namespace NewsSlots

/-- The same notices; the tasks keep their pids and parents, and stay stopped. -/
structure Calm (t t' : ProcTable) : Prop where
  tasks : Forall₂ (fun p q : Proc => q.pid = p.pid ∧ q.parentPid = p.parentPid ∧
    (p.state = .stopped → q.state = .stopped)) t.tasks t'.tasks
  slots : t'.slots = t.slots
  slotSeq : t'.slotSeq = t.slotSeq

lemma Calm.of_steady (h : Steady who t t') : Calm t t' :=
  ⟨h.tasks.imp fun _ _ hs => ⟨hs.pid, hs.parent, hs.stopped.2⟩, h.slots, h.slotSeq⟩

lemma Calm.modify (h : ∀ p, (f p).pid = p.pid ∧ (f p).parentPid = p.parentPid ∧
    (p.state = .stopped → (f p).state = .stopped)) : Calm t (t.modify pid f) := by
  refine ⟨related_map (fun p => ?_) t.tasks, rfl, rfl⟩
  split_ifs
  · exact h p
  · exact ⟨rfl, rfl, id⟩

lemma Calm.trans (h : Calm t t1) (h' : Calm t1 t') : Calm t t' :=
  ⟨related_trans (fun _ _ _ ha hb => ⟨hb.1.trans ha.1, hb.2.1.trans ha.2.1,
    fun hs => hb.2.2 (ha.2.2 hs)⟩) h.tasks h'.tasks, h'.slots.trans h.slots,
    h'.slotSeq.trans h.slotSeq⟩

section

variable (h : NewsSlots t)
include h

lemma retask {l : List Proc} (hpi : (l.map Proc.pid).Nodup) (hp : ∀ q ∈ l, q.parentPid ≠ q.pid)
    (hso : ∀ q ∈ t.tasks, q.state = .stopped → t.StopParked q.pid →
      ∃ q' ∈ l, q'.pid = q.pid ∧ q'.state = .stopped) : NewsSlots { t with tasks := l } := by
  refine ⟨hpi, hp, h.seqs, h.distinct, h.bound, h.oneStop, fun i hi hu hs => ?_⟩
  obtain ⟨q, hq, hpid, hst⟩ := h.stopped i hi hu hs
  obtain ⟨q', hq', hp', hs'⟩ := hso q hq hst ⟨i, hi, hu, hs, hpid.symm⟩
  exact ⟨q', hq', hp'.trans hpid, hs'⟩

lemma of_eq (htasks : t'.tasks = t.tasks) (hs : t'.slots = t.slots)
    (hse : t'.slotSeq = t.slotSeq) : NewsSlots t' := by
  refine ⟨pids_congr htasks ▸ h.pids, htasks ▸ h.parents, ?_, hs ▸ h.distinct, hse ▸ h.bound,
    hs ▸ h.oneStop, ?_⟩
  · rw [hs, hse]
    exact h.seqs
  · rw [hs, htasks]
    exact h.stopped

lemma calm (hc : Calm t t') : NewsSlots t' := by
  have hpi := related_keys hc.tasks fun _ _ hs => hs.1
  refine (h.retask (hpi ▸ h.pids) (fun q hq => ?_) fun p hp hst _ => ?_).of_eq rfl hc.slots
    hc.slotSeq
  · obtain ⟨p, hp, hpid, hpa, _⟩ := related_right hc.tasks hq
    rw [hpid, hpa]
    exact h.parents p hp
  · obtain ⟨q, hq, hqp, _, hqs⟩ := related_left hc.tasks hp
    exact ⟨q, hq, hqp, hqs hst⟩

lemma adopt {next : ℤ} (hme : me ∈ t.tasks) (hfresh : pid ∉ t.pids) :
    NewsSlots (t.adopt pid next me) := by
  refine (h.retask (@adopt_nodup t me pid h.pids next hfresh) (fun q hq => ?_) fun q hq hs _ =>
    ⟨q, mem_append_left _ hq, rfl, hs⟩).of_eq rfl rfl rfl
  rcases t.mem_adopt hq with hq | rfl
  · exact h.parents q hq
  · intro heq
    have hpid : me.pid = pid := heq
    exact hfresh (hpid ▸ mem_map_of_mem hme)

lemma clear (htasks : t'.tasks = t.tasks) (hsq : t'.slotSeq = t.slotSeq)
    (hs : ∀ i, t'.slots i = t.slots i ∨ (t'.slots i).used = false) : NewsSlots t' := by
  obtain ⟨hpi, hp, hse, hd, hb, ho, hst⟩ := h
  refine ⟨pids_congr htasks ▸ hpi, htasks ▸ hp, ?_, ?_, hsq ▸ hb, ?_, ?_⟩
  · grind
  · grind
  · grind
  · rw [htasks]
    grind

lemma park (hr : t.HasRoom) (hso : stopped = true →
    (∃ p ∈ t.tasks, p.pid = child ∧ p.state = .stopped) ∧ ¬ t.StopParked child) :
    NewsSlots (t.parkChildNews parent child code stopped) := by
  obtain ⟨k, hk, hf, hsl⟩ := parkChildNews_free hr parent child code stopped
  obtain ⟨hpi, hp, hse, hd, hb, ho, hst⟩ := h
  have hl := hr.2
  -- only the notice in slot `k` is new
  have hslot : ∀ i, (t.parkChildNews parent child code stopped).slots i =
      if i = k then ⟨parent, child, code, t.slotSeq, true, stopped⟩ else t.slots i := by
    intro i
    rw [hsl, update_apply]
  unfold StopParked at hso
  refine ⟨hpi, hp, ?_, ?_, ?_, ?_, ?_⟩
  · rw [parkChildNews_seq hr]
    simp only [hslot]
    grind
  · simp only [hslot]
    grind
  · rw [parkChildNews_seq hr]
    omega
  · simp only [hslot]
    grind
  · simp only [hslot]
    intro i hi hu hs
    split_ifs at hu hs ⊢
    · exact (hso hs).1
    · exact hst i hi hu hs

lemma not_stopParked (hp : p ∈ t.tasks) (hs : p.state ≠ .stopped) : ¬ t.StopParked p.pid := by
  rintro ⟨i, hi, hu, hst, hc⟩
  obtain ⟨q, hq, hpid, hqs⟩ := h.stopped i hi hu hst
  rw [eq_of_pid h.pids hq hp (hpid.trans hc)] at hqs
  exact hs hqs

end

section Drop

variable {test : ExitSlot → Bool}

lemma dropSlots_cases (t : ProcTable) (test : ExitSlot → Bool) (i : ℕ) :
    (t.dropSlots test).slots i = t.slots i ∨
      ((t.dropSlots test).slots i).used = false ∧ test (t.slots i) = true := by
  unfold ProcTable.dropSlots
  dsimp only
  split_ifs with hd
  · exact .inr ⟨rfl, (Bool.and_eq_true_iff.1 hd).2⟩
  · exact .inl rfl

lemma drop (h : NewsSlots t) (test : ExitSlot → Bool) : NewsSlots (t.dropSlots test) :=
  h.clear rfl rfl fun i => (dropSlots_cases t test i).imp_right And.left

lemma queue_drop (ht : ∀ n, test n = true → n.exitFor pid = false) :
    (t.dropSlots test).exitQueue pid = t.exitQueue pid :=
  exitQueue_clear fun i _ => (dropSlots_cases t test i).imp_right fun hd => ⟨hd.1, ht _ hd.2⟩

lemma not_stopParked_drop (t : ProcTable) (pid : ℤ) : ¬ (t.dropParkedStop pid).StopParked pid := by
  rintro ⟨i, hi, hu, hs, hc⟩
  obtain ⟨heq, _, ht⟩ := dropSlots_slot hu
  have hs' : (t.slots i).stopped = true := heq ▸ hs
  have hc' : (t.slots i).childPid = pid := heq ▸ hc
  simp [hs', hc'] at ht

lemma queue_dropParkedStop : (t.dropParkedStop child).exitQueue pid = t.exitQueue pid := by
  refine queue_drop fun n hn => Bool.eq_false_iff.2 fun he => ?_
  simp [(exitFor_iff.1 he).2.1] at hn

lemma queue_dropParkedStatuses (hne : pid ≠ parent) :
    (t.dropParkedStatuses parent).exitQueue pid = t.exitQueue pid := by
  refine queue_drop fun n hn => Bool.eq_false_iff.2 fun he => ?_
  rw [decide_eq_true_eq] at hn
  exact hne ((exitFor_iff.1 he).2.2.symm.trans hn)

lemma room_drop (h : t.HasRoom) (test : ExitSlot → Bool) : (t.dropSlots test).HasRoom := by
  obtain ⟨⟨i, hi, hf⟩, hs⟩ := h
  refine ⟨⟨i, hi, ?_⟩, hs⟩
  rcases dropSlots_cases t test i with heq | hd
  · rw [heq]
    exact hf
  · exact hd.1

end Drop

lemma park_congr (hs : t'.slots = t.slots) (hse : t'.slotSeq = t.slotSeq) :
    (t'.parkChildNews parent child code stopped).slots =
        (t.parkChildNews parent child code stopped).slots ∧
      (t'.parkChildNews parent child code stopped).slotSeq =
        (t.parkChildNews parent child code stopped).slotSeq := by
  simp [parkChildNews, newsSlot, hs, hse]

section Fates

variable {f : Proc → Proc} {ok : WaitReason → Bool} {value : ℤ}

def parksNews (ok : WaitReason → Bool) (t : ProcTable) (p : Proc) : Bool :=
  ((t.waitingParent p).map waitReason).elim (decide (0 < p.parentPid)) ok

lemma parksExit_eq (t : ProcTable) (p : Proc) :
    parksNews (fun r => decide (r = .pid)) t p = t.parksExit p := by
  unfold parksNews parksExit
  cases t.waitingParent p <;> rfl

lemma parksStop_eq (t : ProcTable) (p : Proc) : parksNews (fun _ => true) t p = t.parksStop p := by
  unfold parksNews parksStop
  cases t.waitingParent p <;> rfl

def withNews (t : ProcTable) (p : Proc) (parks : Bool) (code : ℤ) (stopped : Bool) : ProcTable :=
  if parks then (t.dropParkedStop p.pid).parkChildNews p.parentPid p.pid code stopped else t

lemma notify_slots (ok : WaitReason → Bool) (value code : ℤ) (stopped : Bool) (hw : SameWaits v t u)
    (hs : u.slots = t.slots)
    (hse : u.slotSeq = t.slotSeq) (hf : ∀ q, (f q).state ≠ .waiting)
    (hpid : v.pid = p.pid) (hp : v.parentPid = p.parentPid) (hne : p.parentPid ≠ p.pid) :
    let t' := u.notify f v value (fun q => ok q.waitReason) code stopped
    t'.slots = (withNews t p (parksNews ok t p) code stopped).slots ∧
      t'.slotSeq = (withNews t p (parksNews ok t p) code stopped).slotSeq := by
  have ha : awaits v = awaits p := by
    funext q
    simp [awaits, hpid, hp]
  have hr : ((u.modify v.pid f).tellParent v value).1.map waitReason =
      (t.waitingParent p).map waitReason := by
    unfold waitingParent
    rw [← ha]
    exact wokenParent_reason hw hf (by rw [hpid, hp]; exact hne)
  have he : ∀ (o : Option Proc) (d : Bool),
      o.elim d (fun q => ok q.waitReason) = (o.map waitReason).elim d ok := by
    rintro (_ | q) d <;> rfl
  have ht : ((u.modify p.pid f).tellParent v value).2.slots = t.slots := hs
  unfold ProcTable.notify withNews parksNews
  dsimp only
  rw [he, hr, hpid, hp]
  split_ifs
  · exact park_congr (drop_congr ht _) hse
  · exact ⟨hs, hse⟩

section

variable (h : NewsSlots t)
include h

lemma notify_rows (hs : Steady nobody t u)
    (hf : ∀ q, (f q).pid = q.pid ∧ (f q).parentPid = q.parentPid) (v : Proc) (value code : ℤ)
    (parks : Proc → Bool) (stopped : Bool) :
    let l := (u.notify f v value parks code stopped).tasks
    l.map Proc.pid = t.pids ∧ (∀ q ∈ l, q.parentPid ≠ q.pid) ∧
      ∀ p ∈ t.tasks, p.pid ≠ v.pid → p.state = .stopped →
        ∃ q ∈ l, q.pid = p.pid ∧ q.state = .stopped := by
  refine ⟨(notify_pids fun q => (hf q).1).trans hs.pids, fun q hq => ?_, fun p hp hne hst => ?_⟩
  · obtain ⟨r, hr, hrq⟩ := related_right notify_tasks hq
    obtain ⟨p, hp, hpr⟩ := hs.mem_of hr
    have hsame : q.pid = r.pid ∧ q.parentPid = r.parentPid := by
      rw [hrq.pid, hrq.parent]
      split_ifs
      · exact hf r
      · exact ⟨rfl, rfl⟩
    rw [hsame.1, hsame.2, hpr.pid, hpr.parent]
    exact h.parents p hp
  · obtain ⟨r, hr, hpr⟩ := hs.mem hp
    obtain ⟨q, hq, hrq⟩ := related_left (@notify_tasks u v f value code parks stopped) hr
    rw [if_neg (by rw [hpr.pid]; exact hne)] at hrq
    exact ⟨q, hq, hrq.pid.trans hpr.pid, hrq.stopped.2 (hpr.stopped.2 hst)⟩

/-- News is parked at the back of the queue of the parent. -/
lemma notify (hp : p ∈ t.tasks) (hs : Steady nobody t u)
    (hw : SameWaits v t u) (hv : stopped = true → v ∈ u.tasks) (hpid : v.pid = p.pid)
    (hpar : v.parentPid = p.parentPid)
    (hf : ∀ q, (f q).pid = q.pid ∧ (f q).parentPid = q.parentPid ∧ (f q).state ≠ .waiting)
    (hr : parksNews ok t p = true → t.HasRoom)
    (hn : parksNews ok t p = false → ¬ t.StopParked p.pid)
    (hm : stopped = true → ∀ q, (f q).state = .stopped) :
    let t' := u.notify f v value (fun q => ok q.waitReason) code stopped
    NewsSlots t' ∧ (stopped = false → ¬ t'.StopParked p.pid) ∧
      ∀ pid, (t'.exitQueue pid).map news = (t.exitQueue pid).map news ++
        if parksNews ok t p = true ∧ stopped = false ∧ p.parentPid = pid then [(p.pid, code)]
        else [] := by
  obtain ⟨hpi, hpr, hsa⟩ := h.notify_rows hs (fun q => ⟨(hf q).1, (hf q).2.1⟩) v
    value code (fun q => ok q.waitReason) stopped
  obtain ⟨hsl, hse⟩ := notify_slots ok value code stopped hw hs.slots hs.slotSeq
    (fun q => (hf q).2.2) hpid hpar (h.parents p hp)
  have hne : stopped = true → ∃ q ∈ (u.notify f v value (fun q => ok q.waitReason) code
      stopped).tasks, q.pid = p.pid ∧ q.state = .stopped := by
    intro hst
    obtain ⟨q, hq, hvq⟩ := related_left
      (@notify_tasks u v f value code (fun q => ok q.waitReason) stopped) (hv hst)
    rw [if_pos rfl] at hvq
    exact ⟨q, hq, hvq.pid.trans ((hf v).1.trans hpid), hvq.stopped.2 (hm hst v)⟩
  dsimp only at *
  generalize u.notify f v value (fun q => ok q.waitReason) code stopped = t' at *
  -- the notices that stay are not about the victim, unless they are exits
  have hl : ∀ d : ProcTable, NewsSlots d → d.tasks = t.tasks → ¬ d.StopParked p.pid →
      NewsSlots { d with tasks := t'.tasks } := by
    intro d hd htasks hno
    refine hd.retask (hpi ▸ h.pids) hpr fun q hq hst hpk => ?_
    refine hsa q (htasks ▸ hq) (fun heq => hno ?_) hst
    rw [← hpid, ← heq]
    exact hpk
  unfold withNews at hsl hse
  cases hpa : parksNews ok t p with
  | false =>
    rw [hpa, if_neg (by simp)] at hsl hse
    refine ⟨(hl t h rfl (hn hpa)).of_eq rfl hsl hse, fun _ => ?_, fun pid => ?_⟩
    · unfold StopParked
      rw [hsl]
      exact hn hpa
    · simp [exitQueue_eq hsl]
  | true =>
    rw [hpa, if_pos rfl] at hsl hse
    have hr' : (t.dropParkedStop p.pid).HasRoom := room_drop (hr hpa) _
    have hdr : NewsSlots (t.dropParkedStop p.pid) := h.drop _
    have hno := not_stopParked_drop t p.pid
    refine ⟨?_, fun hst => ?_, fun pid => ?_⟩
    · have hco := @park_congr { t.dropParkedStop p.pid with tasks := t'.tasks }
        (t.dropParkedStop p.pid) p.parentPid p.pid code stopped rfl rfl
      exact ((hl _ hdr rfl hno).park hr' fun hst => ⟨hne hst, hno⟩).of_eq rfl
        (hsl.trans hco.1) (hse.trans hco.2)
    · -- the new notice is no stop notice
      rintro ⟨i, hi, hu, hs, hc⟩
      obtain ⟨k, _, _, hk⟩ := parkChildNews_free hr' p.parentPid p.pid code stopped
      rw [hsl, hk] at hu hs hc
      by_cases hik : i = k
      · simp [hik, hst] at hs
      · rw [update_of_ne hik] at hu hs hc
        exact hno ⟨i, hi, hu, hs, hc⟩
    · rw [exitQueue_eq hsl, exitQueue_park hdr hr', queue_dropParkedStop]
      simp

lemma reap (hp : p ∈ t.tasks) (hid : p.pid ≠ idlePid) (hd : p.state ≠ .dead)
    (hm : Marks t t1) (hcode : ∀ v ∈ t1.tasks, v.pid = p.pid → v.exitCode = status)
    (hr : t.parksExit p = true → t.HasRoom)
    (hn : t.parksExit p = false → ¬ t.StopParked p.pid) :
    NewsSlots (t1.reapTask e p.pid) ∧
      (∀ x ∈ (t1.reapTask e p.pid).pids, x ∈ t.pids ∧ x ≠ p.pid) ∧
      ∀ pid ≠ p.pid, ((t1.reapTask e p.pid).exitQueue pid).map news =
        (t.exitQueue pid).map news ++
          if t.parksExit p = true ∧ p.parentPid = pid then [(p.pid, status)] else [] := by
  obtain ⟨v, hv, hmem, hpid, hpr, hsa⟩ := hm.task h.pids hp
  have hs : Steady nobody t (t1.letGo e) := hm.steady.trans (.letGo t1 e)
  have hw : SameWaits v t (t1.letGo e) := (SameWaits.of_marks hm).trans (.letGo v t1 e)
  rw [← parksExit_eq] at hr hn ⊢
  obtain ⟨hnw, hno, hqu⟩ := @notify t (t1.letGo e) p v v.exitCode false markDead _ v.exitCode
    h hp hs hw (by simp) hpid hpr (fun q => ⟨rfl, rfl, by simp [markDead]⟩) hr hn (by simp)
  obtain ⟨htasks, hsl, hse⟩ := (t1.letGo e).bury_rest v
  have hpi : ((t1.letGo e).exitNews v).pids = t.pids :=
    exitNews_pids.trans hs.pids
  have hre : t1.reapTask e p.pid = (t1.letGo e).bury v := by
    unfold reapTask
    rw [hv]
    dsimp only
    rw [if_neg (by rw [hsa, hpid]; exact not_or.2 ⟨hd, hid⟩)]
  rw [hre]
  refine ⟨?_, fun x hx => ?_, fun pid hne => ?_⟩
  · refine ((hnw.drop fun n => decide (n.parentPid = v.pid)).retask
      (l := ((t1.letGo e).bury v).tasks) ?_ ?_ ?_).of_eq rfl hsl hse
    · rw [htasks]
      exact (hpi ▸ h.pids).sublist (filter_sublist.map _)
    · rw [htasks]
      exact fun q hq => hnw.parents q (mem_filter.1 hq).1
    · -- a stop notice that is left is not about the victim
      intro q hq hst hpa
      refine ⟨q, ?_, rfl, hst⟩
      rw [htasks, mem_filter]
      refine ⟨hq, decide_eq_true fun heq => ?_⟩
      obtain ⟨i, hi, hu, hs', hc⟩ := hpa
      obtain ⟨hsame, hu', _⟩ := dropSlots_slot hu
      exact hno rfl ⟨i, hi, hu', hsame ▸ hs', by rw [← hsame, hc, heq, hpid]⟩
  · rw [ProcTable.pids, htasks] at hx
    obtain ⟨q, hq, rfl⟩ := mem_map.1 hx
    rw [mem_filter] at hq
    exact ⟨hpi ▸ mem_map_of_mem hq.1, by simpa [hpid] using hq.2⟩
  · rw [exitQueue_eq hsl, queue_dropParkedStatuses (by rw [hpid]; exact hne), ← hcode v hmem hpid]
    refine (hqu pid).trans ?_
    simp

lemma stop (hp : p ∈ t.tasks) (hm : Marks t t1) {sig : ℕ}
    (hok : p.state = .stopped ∨ p.pid = idlePid ∨ (t.parksStop p = true → t.HasRoom)) :
    NewsSlots (t1.stopTask p.pid sig) ∧
      ∀ pid, ((t1.stopTask p.pid sig).exitQueue pid).map news =
        (t.exitQueue pid).map news := by
  have hc : Calm t t1 := .of_steady hm.steady
  obtain ⟨v, hv, hmem, hpid, hpa, hsa⟩ := hm.task h.pids hp
  rcases t1.stopTask_cases p.pid sig with heq | ⟨w, hw, hst, hi, heq⟩
  · rw [heq]
    exact ⟨h.calm hc, fun pid => by rw [exitQueue_eq hc.slots]⟩
  · obtain rfl := Option.some.inj (hv.symm.trans hw)
    have hru : p.state ≠ .stopped := hsa ▸ hst
    have hr := (hok.resolve_left hru).resolve_left (hpid ▸ hi)
    rw [← parksStop_eq] at hr
    obtain ⟨hn, _, hq⟩ := @notify t t1 p v sig true (markStopped sig) _ (wstatusStopped + sig)
      h hp hm.steady (.of_marks hm) (fun _ => hmem) hpid hpa
      (fun q => ⟨rfl, rfl, by simp [markStopped]⟩) hr (fun _ => h.not_stopParked hp hru)
      fun _ _ => rfl
    obtain ⟨htasks, hs, hse⟩ :=
      (t1.stopNews v sig).passTerminal_rest v (t1.wokenParent (markStopped sig) v)
    rw [heq]
    refine ⟨hn.of_eq htasks hs hse, fun pid => ?_⟩
    rw [exitQueue_eq hs]
    refine (hq pid).trans ?_
    simp

lemma resume (pid : ℤ) : NewsSlots (t.continueTask pid) ∧
    ∀ x, (t.continueTask pid).exitQueue x = t.exitQueue x := by
  have hpi := t.continueTask_pids pid
  rcases t.continueTask_cases pid with heq | ⟨v, _, _, heq⟩
  · rw [heq]
    exact ⟨h, fun _ => rfl⟩
  rw [heq] at hpi ⊢
  refine ⟨?_, fun x => queue_dropParkedStop⟩
  refine (h.drop _).retask (l := ((t.dropParkedStop pid).modify pid continued).tasks)
    (h.pids.sublist (hpi ▸ .refl _)) (fun q hq => ?_) fun q hq hs hp => ?_
  · obtain ⟨r, hr, rfl⟩ := mem_map.1 hq
    split_ifs <;> exact h.parents r hr
  · have hne : q.pid ≠ pid := by
      intro heq
      rw [heq] at hp
      exact not_stopParked_drop t pid hp
    exact ⟨q, mem_map.2 ⟨q, hq, if_neg hne⟩, rfl, hs⟩

end

end Fates

end NewsSlots

end EsdumanOS
