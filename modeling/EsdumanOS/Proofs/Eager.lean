import EsdumanOS.Eager
import EsdumanOS.Proofs.UserMemory

/-!
# Copy-on-write against the eager fork

Sharing changes neither what a directory shows its program nor the bytes behind it, and a store goes
to a frame that nobody else maps. So each step of the machine is a step of the eager one on what the
programs see, and a run follows by induction.
-/

namespace EsdumanOS

open Lib List Function Machine PageDir Space

variable {addr : ℕ} {byte : UInt8} {kernelMode : Bool} {l : List (Option Space)} {i v : ℕ}

section Space

variable {mem mem' : ℕ → Buf} {d d' : PageDir} {v : ℕ}

lemma PageDir.Ok.accessible_iff (h : d.Ok) :
    d.accessible v = true ↔ v < userPages ∧ d.present v = true := by
  unfold accessible
  simp only [Bool.and_eq_true, decide_eq_true_eq]
  constructor
  · rintro ⟨⟨⟨hv, -⟩, hp⟩, -⟩
    exact ⟨hv, hp⟩
  · rintro ⟨hv, hp⟩
    obtain ⟨-, ho, hu⟩ := h.user v hv hp
    exact ⟨⟨⟨hv, ho⟩, hp⟩, hu⟩

lemma spaceOf_view (h : d.Ok) (v : ℕ) : spaceOf mem d v =
    if v < userPages then (d.view v).map fun x => ⟨mem x.1, x.2⟩ else none := by
  unfold spaceOf PageDir.view
  by_cases hv : v < userPages
  · rw [if_pos hv]
    by_cases hp : d.present v = true
    · rw [if_pos (h.accessible_iff.2 ⟨hv, hp⟩), if_pos hp]
      rfl
    · rw [if_neg fun ha => hp (h.accessible_iff.1 ha).2, if_neg hp]
      rfl
  · rw [if_neg hv, if_neg fun ha => hv (h.accessible_iff.1 ha).1]

lemma spaceOf_of_view (h : d.Ok) (h' : d'.Ok) (hvi : ∀ w < userPages, d'.view w = d.view w) :
    spaceOf mem d' = spaceOf mem d := by
  funext v
  rw [spaceOf_view h, spaceOf_view h']
  split_ifs with hv
  · rw [hvi v hv]
  · rfl

/-- What a program sees depends only on the bytes of the frames its directory maps. -/
lemma spaceOf_of_mem (h : d.Ok) (hmem : ∀ f ∈ d.usrFrames, mem' f = mem f) :
    spaceOf mem' d = spaceOf mem d := by
  funext v
  unfold spaceOf
  split_ifs with ha
  · obtain ⟨hv, hp⟩ := h.accessible_iff.1 ha
    rw [hmem _ (mem_usrFrames hv hp)]
  · rfl

lemma mayWrite_iff :
    d.mayWrite v ↔ ∃ p, spaceOf mem d v = some p ∧ p.writable = true := by
  unfold mayWrite spaceOf
  constructor
  · rintro ⟨ha, hw⟩
    exact ⟨_, if_pos ha, by simpa using hw⟩
  · rintro ⟨p, hp, hw⟩
    split_ifs at hp with ha
    obtain rfl := Option.some.inj hp
    exact ⟨ha, by simpa using hw⟩

end Space

section Store

variable {m m' : Vm} {ds : List PageDir} {e : VmEnv} {addr : ℕ} {byte : UInt8}

/-- A store leaves the running program with `res` and the others with what they had. -/
structure Stores (m : Vm) (ds : List PageDir) (r : WriteResult × Vm) (res : WriteResult × Space) :
    Prop where
  own : (r.1, spaceOf r.2.mem r.2.dir) = res
  others : ∀ d ∈ ds, spaceOf r.2.mem d = spaceOf m.mem d

lemma storeByte_stores (byte : UInt8) (h : m.Inv ds)
    (hacc : m.dir.accessible (addr / pageSize) = true)
    (hw : (m.dir.lookup (addr / pageSize)).flags.writable = true) :
    Stores m ds (storeByte m addr byte) ((spaceOf m.mem m.dir).store addr byte) := by
  have hok := h.ok m.dir mem_cons_self
  obtain ⟨hv, hp⟩ := hok.accessible_iff.1 hacc
  have hm := mapped_of_present hp
  -- the frame is mapped by this entry alone
  have ho := h.sole m.dir mem_cons_self _ hv hp hw
  have hs := Multiset.count_pos.2 (mem_usrFrames hv hp)
  rw [usrAll_cons, Multiset.count_add] at ho
  have ha : (m.dir.lookup (addr / pageSize)).frame ∉ usrAll ds :=
    Multiset.count_eq_zero.1 (by omega)
  unfold storeByte
  rw [if_pos ⟨hacc, hw⟩]
  refine ⟨?_, fun d hd => ?_⟩
  · have hpa : spaceOf m.mem m.dir (addr / pageSize) =
        some ⟨m.mem (m.dir.lookup (addr / pageSize)).frame, true⟩ := by
      unfold spaceOf
      rw [if_pos hacc, hw, Bool.true_or]
    unfold store
    rw [hpa]
    refine Prod.ext rfl (funext fun w => ?_)
    dsimp only
    by_cases hwv : w = addr / pageSize
    · rw [hwv, update_self]
      unfold spaceOf
      rw [if_pos hacc, update_self, hw, Bool.true_or]
    · rw [update_of_ne hwv]
      unfold spaceOf
      split_ifs with hac
      · obtain ⟨hwl, hpw⟩ := hok.accessible_iff.1 hac
        have hne : (m.dir.lookup w).frame ≠ (m.dir.lookup (addr / pageSize)).frame := fun heq =>
          hwv (held_nodup_inj hok.once hwl hv (mapped_of_present hpw) (heq ▸ hm))
        rw [update_of_ne hne]
      · rfl
  · refine spaceOf_of_mem (h.ok d (mem_cons_of_mem _ hd)) fun f hf => ?_
    have hne : f ≠ (m.dir.lookup (addr / pageSize)).frame := fun heq =>
      ha (heq ▸ mem_usrAll hd hf)
    exact update_of_ne hne _ _

/-- The private copy has the bytes of the shared frame. -/
lemma MovedTo.space {g v : ℕ} (h : m.Inv ds) (hm : MovedTo m ds v g m') (hv : v < userPages)
    (hp : m.dir.present v = true) (hcow : (m.dir.lookup v).flags.cow = true) :
    spaceOf m'.mem m'.dir = spaceOf m.mem m.dir := by
  have hok := h.ok m.dir mem_cons_self
  have ho' := hm.inv.ok m'.dir mem_cons_self
  have hp' : m'.dir.present v = true := by
    rw [present, hm.sets.lookup_self]
    exact hp
  funext w
  by_cases hwv : w = v
  · subst hwv
    unfold spaceOf
    rw [if_pos (hok.accessible_iff.2 ⟨hv, hp⟩), if_pos (ho'.accessible_iff.2 ⟨hv, hp'⟩),
      hm.sets.lookup_self, hcow, Bool.or_true]
    dsimp only [Pte.unshared]
    rw [hm.bytes, Bool.true_or]
  · have hl := hm.sets.lookup_ne hwv
    rw [spaceOf_view hok, spaceOf_view ho', view_congr hl]
    split_ifs with hw
    · unfold PageDir.view
      split_ifs with hpw
      · have hmem := mem_usrAll (mem_cons_self (l := ds)) (mem_usrFrames hw hpw)
        rw [Option.map_some, Option.map_some, hm.elsewhere _ hmem]
      · rfl
    · rfl

lemma MovedTo.others {g v : ℕ} (h : m.Inv ds) (hm : MovedTo m ds v g m') :
    ∀ d ∈ ds, spaceOf m'.mem d = spaceOf m.mem d := fun d hd =>
  spaceOf_of_mem (h.ok d (mem_cons_of_mem _ hd)) fun f hf =>
    hm.elsewhere f (mem_usrAll (mem_cons_of_mem _ hd) hf)

lemma MovedTo.stores {g : ℕ} (h : m.Inv ds) (hm : MovedTo m ds (addr / pageSize) g m')
    (hv : addr / pageSize < userPages) (hp : m.dir.present (addr / pageSize) = true)
    (hcow : (m.dir.lookup (addr / pageSize)).flags.cow = true) :
    Stores m ds (storeByte m' addr byte) ((spaceOf m.mem m.dir).store addr byte) := by
  have hl := hm.sets.lookup_self
  have ha : m'.dir.accessible (addr / pageSize) = true := by
    refine (hm.inv.ok m'.dir mem_cons_self).accessible_iff.2 ⟨hv, ?_⟩
    rw [present, hl]
    exact hp
  obtain ⟨how, ho⟩ := storeByte_stores byte hm.inv ha (by rw [hl]; rfl)
  rw [hm.space h hv hp hcow] at how
  exact ⟨how, fun d hd => (ho d hd).trans (hm.others h d hd)⟩

lemma Stores.violation (hn : ¬ m.dir.mayWrite (addr / pageSize)) :
    Stores m ds (.violation, m) ((spaceOf m.mem m.dir).store addr byte) := by
  refine ⟨?_, fun _ _ => rfl⟩
  unfold store
  rcases hp : spaceOf m.mem m.dir (addr / pageSize) with _ | ⟨bytes, _ | _⟩
  · rfl
  · rfl
  · exact absurd (mayWrite_iff.2 ⟨_, hp, rfl⟩) hn

/-- A store of the running program is the store to its own pages, or it fails and changes nothing
because the frame it needs cannot be had. -/
lemma userWrite_stores (e : VmEnv) (addr : ℕ) (byte : UInt8) (h : m.Inv ds) :
    Stores m ds (userWrite e m addr byte) (if CopyFails e m.pmm m.dir (addr / pageSize) then
      (.outOfMemory, spaceOf m.mem m.dir) else (spaceOf m.mem m.dir).store addr byte) := by
  have hok := h.ok m.dir mem_cons_self
  unfold userWrite
  dsimp only
  split
  · rename_i hd
    rw [if_neg fun hcf => Bool.false_ne_true (hcf.2.1.symm.trans hd.2)]
    exact storeByte_stores byte h hd.1 hd.2
  rename_i hd
  split
  · have hs := cowHandleFault_spec e addr h
    rcases hres : cowHandleFault e m addr with ⟨r, m'⟩
    rw [hres] at hs
    cases hs with
    | notCow hn =>
      have hro : ¬ m.dir.mayWrite (addr / pageSize) := by
        rintro ⟨ha, hw | hc⟩
        · exact hd ⟨ha, hw⟩
        · obtain ⟨hv, hp⟩ := hok.accessible_iff.1 ha
          exact hn ⟨(hok.user _ hv hp).1, hv, hp, hc⟩
      rw [if_neg fun hcf => hro hcf.1]
      exact .violation hro
    | failed p hv hp hcow hno =>
      have ha := hok.accessible_iff.2 ⟨hv, hp⟩
      rw [if_pos ⟨⟨ha, .inr hcow⟩, by simpa using fun hw => hd ⟨ha, hw⟩, hno⟩]
      exact ⟨rfl, fun _ _ => rfl⟩
    | resolved g _ hv hp hcow hno hm =>
      rw [if_neg fun hcf => hno hcf.2.2]
      exact hm.stores h hv hp hcow
  · rename_i hpr
    have hro : ¬ m.dir.mayWrite (addr / pageSize) := fun hma => hpr (hok.accessible_iff.1 hma.1).2
    rw [if_neg fun hcf => hro hcf.1]
    exact .violation hro

end Store

section Machine

variable {s : Machine} {i : ℕ} {t t' : Task} {m : Vm} {ph : Phys} {e : VmEnv}

lemma spaces_get (h : s.task? i = some t) : s.spaces[i]? = some (some (spaceOf s.mem t.dir)) := by
  unfold spaces
  rw [getElem?_map, task?_eq_some.1 h]
  rfl

lemma spaces_join (s : Machine) (i : ℕ) :
    (s.spaces[i]?).join = (s.task? i).map fun t => spaceOf s.mem t.dir := by
  unfold spaces task?
  rw [getElem?_map]
  rcases s.tasks[i]? with _ | _ | t
  · rfl
  · rfl
  · rfl

lemma set_spaces (h : s.task? i = some t) :
    s.spaces.set i (some (spaceOf s.mem t.dir)) = s.spaces := by
  obtain ⟨hi, hg⟩ := List.getElem?_eq_some_iff.1 (spaces_get h)
  rw [← hg, set_getElem_self]

lemma spaces_put (t' : Task) (h : s.task? i = some t)
    (ho : ∀ d ∈ s.others i, spaceOf m.mem d = spaceOf s.mem d) :
    (s.put i m t').spaces = s.spaces.set i (some (spaceOf m.mem m.dir)) := by
  refine ext_getElem? fun j => ?_
  have h := task?_eq_some.1 h
  obtain ⟨hi, -⟩ := List.getElem?_eq_some_iff.1 h
  unfold spaces put
  by_cases hij : i = j
  · subst hij
    rw [getElem?_map, getElem?_set_self hi, getElem?_set_self (by simpa using hi)]
    rfl
  · rw [getElem?_map, getElem?_set_ne hij, getElem?_set_ne hij, getElem?_map]
    rcases hj : s.tasks[j]? with _ | _ | t1
    · rfl
    · rfl
    · have hmem : t1.dir ∈ s.others i := by
        refine mem_append_left _ (mem_filterMap.2 ⟨some t1, ?_, rfl⟩)
        exact mem_eraseIdx_iff_getElem?.2 ⟨j, Ne.symm hij, hj⟩
      simp only [Option.map_some]
      rw [ho _ hmem]

lemma spaces_put_self (h : s.task? i = some t)
    (ho : ∀ d ∈ s.others i, spaceOf m.mem d = spaceOf s.mem d)
    (hs : spaceOf m.mem m.dir = spaceOf s.mem t.dir) : (s.put i m t').spaces = s.spaces := by
  rw [spaces_put t' h ho, hs, set_spaces h]

lemma exitTask_spaces : (exitTask e s i t).spaces = eagerExit s.spaces i := by
  unfold exitTask eagerExit
  split_ifs with hi
  · rfl
  · unfold spaces
    rw [kfree, heapShrink_mem, map_set]
    rfl

lemma scheduleOn_spaces : (scheduleOn e s t).spaces = s.spaces := by
  unfold scheduleOn spaces
  rw [kfree, heapShrink_mem]

lemma Space.store_refused {m : Space}
    (h : (m.store addr byte).1 ≠ .written) : (m.store addr byte).2 = m := by
  unfold store at h ⊢
  split at h
  · exact absurd rfl h
  · rfl
  · rfl

lemma doWrite_fst :
    (doWrite e s i t kernelMode addr byte).1 = (userWrite e (s.vm t) addr byte).1 := by
  unfold doWrite
  dsimp only
  split_ifs <;> rfl

lemma doWrite_result (h : MemInv s) (ht : s.task? i = some t) :
    (doWrite e s i t kernelMode addr byte).1 =
      if CopyFails e s.pmm t.dir (addr / pageSize) then .outOfMemory
      else ((spaceOf s.mem t.dir).store addr byte).1 := by
  rw [doWrite_fst]
  exact (congrArg Prod.fst (userWrite_stores e addr byte (h.vm ht)).own).trans
    (apply_ite Prod.fst _ _ _)

lemma doWrite_spaces (h : MemInv s) (ht : s.task? i = some t) :
    (doWrite e s i t kernelMode addr byte).2.spaces =
      eagerWrite s.spaces i kernelMode
        (if CopyFails e s.pmm t.dir (addr / pageSize) then (.outOfMemory, spaceOf s.mem t.dir)
        else (spaceOf s.mem t.dir).store addr byte) := by
  obtain ⟨how, ho⟩ := userWrite_stores e addr byte (h.vm ht)
  have hp := spaces_put t ht ho
  unfold doWrite
  generalize userWrite e (s.vm t) addr byte = r at how hp ⊢
  -- a refused store leaves the pages
  have hk : r.1 ≠ .written → spaceOf r.2.mem r.2.dir = spaceOf s.mem t.dir := by
    intro hne
    split at how
    · exact congrArg Prod.snd how
    · have hf : r.1 = ((spaceOf s.mem t.dir).store addr byte).1 := congrArg Prod.fst how
      exact (congrArg Prod.snd how).trans (store_refused (hf ▸ hne))
  refine Eq.trans ?_ (congrArg (eagerWrite s.spaces i kernelMode) how)
  unfold eagerWrite
  dsimp only
  split_ifs with hg
  · exact hp
  · rw [exitTask_spaces, hp, hk fun hw => hg (Or.inl hw), set_spaces ht]

lemma finishFork_spaces {child : PageDir} {r : Errno × Vm × PageDir} (h : MemInv s)
    (ht : s.task? i = some t) (hmem : m.mem = s.mem) (hdir : m.dir = t.dir)
    (hc : Copied m child (s.others i) r) :
    (finishFork e s i t r).2.spaces =
      if (finishFork e s i t r).1 = .forked then s.spaces ++ [some (spaceOf s.mem t.dir)]
      else s.spaces := by
  have hok : t.dir.Ok := (h.vm ht).ok t.dir mem_cons_self
  have ho : r.2.1.dir.Ok := hc.inv.ok _ (mem_cons_of_mem _ mem_cons_self)
  have hr : r.2.1.mem = s.mem := hc.mem.trans hmem
  have hp : (s.put i r.2.1 t).spaces = s.spaces := by
    refine spaces_put_self ht (fun d _ => by rw [hr]) ?_
    rw [hr]
    exact spaceOf_of_view hok ho fun w hw => hdir ▸ hc.view w hw
  have hg : (kmalloc e.task (s.put i r.2.1 t).toPhys).2.mem = (s.put i r.2.1 t).mem :=
    heapGrow_mem _ _
  have hcl : ∀ (ph : Phys), ph.mem = (s.put i r.2.1 t).mem →
      spaces { s.put i r.2.1 t with toPhys := ph } = s.spaces := by
    intro ph hph
    rw [← hp]
    unfold spaces
    rw [hph]
  unfold finishFork
  by_cases hf : r.1 ≠ .ok
  · rw [if_pos hf, if_neg (by simp)]
    exact hcl _ rfl
  rw [if_neg hf]
  by_cases hk : (!(kmalloc e.task (s.put i r.2.1 t).toPhys).1) = true
  · rw [if_pos hk, if_neg (by simp)]
    exact hcl _ hg
  · rw [if_neg hk, if_pos rfl]
    unfold append spaces
    rw [hg, map_append]
    refine congrArg₂ (· ++ ·) hp ?_
    refine congrArg (fun x => [some x]) ?_
    have hch := hc.child (not_not.1 hf)
    change spaceOf r.2.1.mem r.2.2 = _
    rw [hr]
    exact spaceOf_of_view hok (hc.inv.ok _ mem_cons_self) fun w hw => hdir ▸ hch w hw

lemma sysFork_spaces (h : MemInv s) (ht : s.task? i = some t) :
    (sysFork e s i t).2.spaces =
      if (sysFork e s i t).1 = .forked then s.spaces ++ [some (spaceOf s.mem t.dir)]
      else s.spaces := by
  rcases h.sysFork_cases (e := e) ht with
    ⟨res, ph, hres, hmem, -, heq⟩ | ⟨-, m, child, r, hmem, hdir, hc, heq⟩ <;> rw [heq]
  · rw [if_neg hres]
    unfold spaces
    rw [hmem]
  · exact finishFork_spaces h ht hmem hdir hc

end Machine

section Runs

variable {s : Machine}

/-- One step of the machine is one of the eager machine, on what the programs see. -/
lemma memStep_spaces (a : CowStep) (h : MemInv s) :
    (memStep s a.toMemStep).spaces = eagerStep s.spaces ⟨a.task, match s.task? a.task with
      | some t => eagerOp s a t
      | none => .none⟩ := by
  unfold memStep eagerStep CowStep.toMemStep
  rw [spaces_join]
  cases ht : s.task? a.task with
  | none => rfl
  | some t =>
    unfold eagerOp CowOp.toMemOp
    cases a.op with
    | fork =>
      refine (sysFork_spaces h ht).trans ?_
      simp only [Option.map_some, decide_eq_true_eq]
    | write kernelMode addr byte =>
      refine (doWrite_spaces h ht).trans ?_
      simp only [Option.map_some, decide_eq_true_eq]
    | exit => exact exitTask_spaces
    | schedule => exact scheduleOn_spaces
    | kernelHeap taken released =>
      unfold spaces
      dsimp only
      rw [kfree, heapShrink_mem, kmalloc, heapGrow_mem]
      rfl

lemma cowRun_spaces : ∀ (as : List CowStep) {s : Machine}, MemInv s →
    (cowRun s as).spaces = eagerRun s.spaces (eagerSteps s as)
  | [], _, _ => rfl
  | a :: as, s, h => by
    have hs := memStep_spaces a h
    have hr := cowRun_spaces as (memStep_inv a.toMemStep h)
    rw [hs] at hr
    exact hr

/-- Task `i` has no page it may write at `v`. -/
def Shut (l : List (Option Space)) (i v : ℕ) : Prop :=
  i < l.length ∧ ∀ m, l[i]? = some (some m) → ∀ p, m v = some p → p.writable = false

lemma Shut.exit (h : Shut l i v) (j : ℕ) :
    Shut (eagerExit l j) i v := by
  unfold eagerExit
  split_ifs with hj
  · exact h
  · refine ⟨by simpa using h.1, fun m hm => ?_⟩
    rw [getElem?_set] at hm
    split_ifs at hm
    · exact absurd hm (by simp)
    · exact h.2 m hm

lemma Space.store_shut {m : Space} {addr v : ℕ} (h : ∀ p, m v = some p → p.writable = false) :
    ∀ p, (m.store addr byte).2 v = some p → p.writable = false := by
  unfold store
  split
  · rename_i bytes hpa
    intro p hp
    by_cases hv : v = addr / pageSize
    · subst hv
      exact absurd (h _ hpa) (by simp)
    · exact h p ((update_of_ne hv _ _).symm.trans hp)
  · exact h
  · exact h

lemma Shut.set {i j v : ℕ} {m m' : Space} (h : Shut l i v) (hm : l[j]? = some (some m))
    (hk : (∀ p, m v = some p → p.writable = false) → ∀ p, m' v = some p → p.writable = false) :
    Shut (l.set j (some m')) i v := by
  refine ⟨by simpa using h.1, fun m1 hm1 => ?_⟩
  rw [getElem?_set] at hm1
  split_ifs at hm1 with hi hlt
  · obtain rfl := Option.some.inj (Option.some.inj hm1)
    exact hk (h.2 m (hi ▸ hm))
  · exact h.2 m1 hm1

lemma Shut.step (h : Shut l i v) (a : EagerStep) :
    Shut (eagerStep l a) i v := by
  unfold eagerStep
  rcases hm : (l[a.task]?).join with _ | m
  · exact h
  have hg := Option.join_eq_some_iff.1 hm
  cases a.op with
  | fork made =>
    dsimp only
    split_ifs
    · refine ⟨by simpa using Nat.lt_succ_of_lt h.1, fun m' hm' => h.2 m' ?_⟩
      rwa [getElem?_append_left h.1] at hm'
    · exact h
  | write kernelMode addr byte outOfMemory =>
    dsimp only
    unfold eagerWrite
    split_ifs with ho hgo hgo
    · exact h.set hg id
    · exact h.exit a.task
    · exact h.set hg store_shut
    · exact h.exit a.task
  | exit => exact h.exit a.task
  | none => exact h

lemma Shut.run (h : Shut l i v) (as : List EagerStep) :
    Shut (eagerRun l as) i v := by
  have hs : ∀ l' a, Shut l' i v → Shut (eagerStep l' a) i v := fun _ a hl => hl.step a
  exact foldl_invariant hs as h

lemma Shut.mayWrite {t : Task} (h : Shut s.spaces i v) (ht : s.task? i = some t) :
    ¬ t.dir.mayWrite v := by
  intro hm
  obtain ⟨p, hp, hw⟩ := mayWrite_iff.1 hm
  exact absurd (h.2 _ (spaces_get ht) p hp) (by simp [hw])

lemma Shut.of_mayWrite {t : Task} (ht : s.task? i = some t)
    (hn : ¬ t.dir.mayWrite v) : Shut s.spaces i v := by
  have hg := spaces_get ht
  refine ⟨(List.getElem?_eq_some_iff.1 hg).1, fun m hm p hp => ?_⟩
  rw [hg] at hm
  obtain rfl := Option.some.inj (Option.some.inj hm)
  by_contra hw
  exact hn (mayWrite_iff.2 ⟨p, hp, by simpa using hw⟩)

lemma MemInv.looksEager (h : MemInv s) (as : List CowStep) : LooksEager s as where
  spaces := cowRun_spaces as h
  stores := fun _ _ _ _ _ _ ht => doWrite_result (memRun_inv _ h) ht
  parent := by
    intro env i t v ht hn t' ht'
    refine Shut.mayWrite (s := cowRun (memStep s ⟨env, i, .fork⟩) as) ?_ ht'
    have hf := memStep_spaces ⟨env, i, .fork⟩ h
    rw [cowRun_spaces as (memStep_inv _ h)]
    refine .run ?_ _
    rw [show memStep s ⟨env, i, .fork⟩ = memStep s (CowStep.toMemStep ⟨env, i, .fork⟩) from rfl, hf]
    exact (Shut.of_mayWrite ht hn).step _
  child := by
    intro env i t v ht hn hfo t' ht'
    refine Shut.mayWrite (s := cowRun (memStep s ⟨env, i, .fork⟩) as) ?_ ht'
    rw [cowRun_spaces as (memStep_inv _ h)]
    refine Shut.run ?_ _
    have hf : (memStep s ⟨env, i, .fork⟩).spaces =
        s.spaces ++ [some (spaceOf s.mem t.dir)] := by
      unfold memStep
      rw [ht]
      rw [sysFork_spaces h ht, if_pos hfo]
    have hl : s.tasks.length = s.spaces.length := (length_map _).symm
    rw [hf, hl]
    refine ⟨by simp, fun m hm p hp => ?_⟩
    rw [getElem?_concat_length] at hm
    obtain rfl := Option.some.inj (Option.some.inj hm)
    exact (Shut.of_mayWrite ht hn).2 _ (spaces_get ht) p hp

/-- A store that the caller of a fork could make before is made after it, if there is a frame. -/
lemma LooksEager.store_after_fork {t : Task} {env : VmEnv} (h : LooksEager s [⟨env, i, .fork⟩])
    (ht : s.task? i = some t) (hstore : ((spaceOf s.mem t.dir).store addr byte).1 = .written)
    (henv : (env.tempMap && env.copyOk (addr / pageSize)) = true) :
    ∃ t', (cowRun s [⟨env, i, .fork⟩]).task? i = some t' ∧
      ((pmmAllocFrame (cowRun s [⟨env, i, .fork⟩]).pmm).1 = none ∨
        (doWrite env (cowRun s [⟨env, i, .fork⟩]) i t' kernelMode addr byte).1 = .written) := by
  have hpages : (cowRun s [⟨env, i, .fork⟩]).spaces[i]? = some (some (spaceOf s.mem t.dir)) := by
    rw [h.spaces, ← spaces_get ht]
    simp only [eagerSteps, eagerRun, eagerStep, eagerOp, foldl_cons, foldl_nil, spaces_join, ht,
      Option.map_some]
    split
    · exact getElem?_append_left (List.getElem?_eq_some_iff.1 (spaces_get ht)).1
    · rfl
  have hjoin := spaces_join (cowRun s [⟨env, i, .fork⟩]) i
  rw [hpages] at hjoin
  obtain ⟨t', ht', hsame⟩ := Option.map_eq_some_iff.1 hjoin.symm
  refine ⟨t', ht', or_iff_not_imp_left.2 fun hfree => ?_⟩
  rw [h.stores _ _ _ _ _ _ ht', if_neg, hsame]
  · exact hstore
  · rintro ⟨-, -, -, hno | hno⟩
    · exact hfree hno
    · simp [henv] at hno

/-- From every state of a machine, forks look like copies to the programs. -/
theorem cowRun_looksEager (b : Boot) (before : List MemStep) (as : List CowStep) :
    LooksEager (memRun (bootMachine b) before) as :=
  (memRun_inv before (bootMachine_inv b)).looksEager as

def sampleBoot : Boot where
  framesCount := 304
  kernel := []
  dirFrame := 256
  tableFrame := 257
  idleFrame := 258
  mem _ _ := 0
  usedMemory := 0
  nodup := by decide
  range := by decide

def sampleEnv : VmEnv := ⟨true, fun _ => true, ⟨true, 0⟩, ⟨true, 0⟩, 0⟩

def sampleSegment : Segment := ⟨0x400000, 1, true, fun _ => 0, by decide⟩

def sampleLoad : List MemStep :=
  [⟨sampleEnv, 0, .start (fun _ => true) [sampleSegment]⟩]

/-- A program of one page forks and stores to the page it now shares: the store is made as long as
there is a frame for the copy. -/
theorem cowRun_looksEager_shared :
    ∃ t, (cowRun (memRun (bootMachine sampleBoot) sampleLoad) [⟨sampleEnv, 1, .fork⟩]).task? 1 =
      some t ∧ ((pmmAllocFrame (cowRun (memRun (bootMachine sampleBoot) sampleLoad)
        [⟨sampleEnv, 1, .fork⟩]).pmm).1 = none ∨
      (doWrite sampleEnv (cowRun (memRun (bootMachine sampleBoot) sampleLoad)
        [⟨sampleEnv, 1, .fork⟩]) 1 t false 0x400000 7).1 = .written) := by
  have hloaded : ((memRun (bootMachine sampleBoot) sampleLoad).task? 1).any (fun t =>
      decide (((spaceOf (memRun (bootMachine sampleBoot) sampleLoad).mem t.dir).store
        0x400000 7).1 = .written)) = true := by decide +kernel
  obtain ⟨t, ht, hstore⟩ := (Option.any_eq_true _ _).1 hloaded
  exact (cowRun_looksEager sampleBoot sampleLoad [⟨sampleEnv, 1, .fork⟩]).store_after_fork ht
    (of_decide_eq_true hstore) rfl

lemma eagerStep_other {a : EagerStep} (h : a.task ≠ i) (hi : i < l.length) :
    (eagerStep l a)[i]? = l[i]? := by
  unfold eagerStep eagerWrite eagerExit
  split
  · rfl
  · split <;> (try split_ifs) <;> simp [getElem_set_ne h, getElem?_append_left, hi]

/-- In every state of a machine, a program reads after a fork, a store or an exit of another task
what it read before. -/
theorem memStep_isolated (b : Boot) (before : List MemStep) (a : CowStep)
    (i : Fin (memRun (bootMachine b) before).tasks.length) : a.task = i ∨
      (memStep (memRun (bootMachine b) before) a.toMemStep).spaces[i.1]? =
        (memRun (bootMachine b) before).spaces[i.1]? := by
  refine or_iff_not_imp_left.2 fun h => ?_
  rw [memStep_spaces a (memRun_inv before (bootMachine_inv b))]
  exact eagerStep_other h (by simp [spaces])

end Runs

end EsdumanOS
