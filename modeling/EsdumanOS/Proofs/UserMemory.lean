import EsdumanOS.Proofs.Loader
import EsdumanOS.Proofs.Fault

/-!
# Frames over whole runs

The invariant of the machine: `FramesInv` for the directories of all tasks and of the zombie, at
most sixteen tasks and one zombie. Every step keeps it, so in every state the reference count of a
mapped frame is the number of entries that map it.
-/

namespace EsdumanOS

open Lib List Machine PageDir Boot

variable {l : List (Option Task)}

section Directories

variable {s : Machine} {i : ℕ} {t t' : Task} {m : Vm} {ph : Phys}

def taskDirs (l : List (Option Task)) : List PageDir :=
  l.filterMap (Option.map Task.dir)

def Machine.dirs (s : Machine) : List PageDir :=
  taskDirs s.tasks ++ s.zombies

def Machine.otherTasks (s : Machine) (i : ℕ) : List PageDir :=
  taskDirs (s.tasks.eraseIdx i)

def Machine.others (s : Machine) (i : ℕ) : List PageDir :=
  s.otherTasks i ++ s.zombies

lemma Machine.task?_eq_some : s.task? i = some t ↔ s.tasks[i]? = some (some t) := by
  exact Option.join_eq_some_iff

lemma taskDirs_perm (h : l[i]? = some (some t)) :
    (taskDirs l).Perm (t.dir :: taskDirs (l.eraseIdx i)) := by
  obtain ⟨hi, hg⟩ := List.getElem?_eq_some_iff.1 h
  have hs : l = l.take i ++ some t :: l.drop (i + 1) := by
    rw [← hg, getElem_cons_drop, take_append_drop]
  unfold taskDirs
  rw [eraseIdx_eq_take_drop_succ, filterMap_append]
  nth_rewrite 1 [hs]
  rw [filterMap_append]
  exact perm_middle

lemma taskDirs_set {x : Option Task} (hi : i < l.length) :
    (taskDirs (l.set i x)).Perm ((x.map Task.dir).toList ++ taskDirs (l.eraseIdx i)) := by
  unfold taskDirs
  rw [eraseIdx_eq_take_drop_succ, set_eq_take_append_cons_drop, if_pos hi,
    filterMap_append, filterMap_append]
  cases x with
  | none => exact Perm.refl _
  | some t => exact perm_middle

lemma Machine.dirs_perm (h : s.task? i = some t) : s.dirs.Perm (t.dir :: s.others i) :=
  (taskDirs_perm (task?_eq_some.1 h)).append_right _

lemma Machine.put_perm (h : s.task? i = some t) :
    (s.put i m t').dirs.Perm (m.dir :: s.others i) := by
  obtain ⟨hi, -⟩ := List.getElem?_eq_some_iff.1 (task?_eq_some.1 h)
  exact (taskDirs_set (x := some { t' with dir := m.dir }) hi).append_right _

lemma Machine.append_perm : (s.append ph t).dirs.Perm (t.dir :: s.dirs) := by
  unfold append dirs taskDirs
  rw [filterMap_append]
  exact (perm_append_singleton t.dir _).append_right s.zombies

lemma Machine.length_dirs (s : Machine) :
    s.dirs.length = s.tasks.countP Option.isSome + s.zombies.length := by
  unfold dirs taskDirs
  rw [length_append, length_filterMap_eq_countP]
  congr 2
  funext x
  cases x <;> rfl

lemma countP_isSome_set (t' : Task) (ht : l[i]? = some (some t)) :
    (l.set i (some t')).countP Option.isSome = l.countP Option.isSome := by
  obtain ⟨hi, hg⟩ := List.getElem?_eq_some_iff.1 ht
  rw [countP_set hi, hg]
  simp only [Option.isSome_some, if_true]
  have : 0 < l.countP Option.isSome := countP_pos_iff.2 ⟨some t, hg ▸ getElem_mem hi, rfl⟩
  omega

lemma Machine.put_slot (h : s.task? i = some t) :
    (s.put i m t').checkFreeTaskSlot = s.checkFreeTaskSlot := by
  have hc := countP_isSome_set { t' with dir := m.dir } (task?_eq_some.1 h)
  unfold checkFreeTaskSlot put
  rw [hc]

lemma Machine.put_kernelDir (h : s.task? i = some t) (hf : m.dir.frame = t.dir.frame) :
    (s.put i m t').kernelDir = s.kernelDir := by
  have h := task?_eq_some.1 h
  obtain ⟨hi, -⟩ := List.getElem?_eq_some_iff.1 h
  unfold kernelDir task? put
  by_cases hi0 : i = 0
  · subst hi0
    rw [h, getElem?_set_self hi]
    exact hf
  · rw [getElem?_set_ne hi0]

end Directories

def Task.BreakOk (t : Task) : Prop :=
  t.brkStart = 0 ∨ 0x400000 ≤ t.brkStart ∧ t.brkStart ≤ t.brkCurrent ∧ t.brkCurrent ≤ 0xC0000000

structure TasksOk (s : Machine) : Prop where
  live : s.tasks.countP Option.isSome ≤ maxTasks
  dead : s.zombies.length ≤ 1
  breaks : ∀ t, some t ∈ s.tasks → t.BreakOk
  idle : ∃ t, s.task? 0 = some t

structure MemInv (s : Machine) : Prop extends TasksOk s where
  frames : FramesInv s.pmm s.heap s.dirs

section Steps

variable {s : Machine} {i : ℕ} {t t' : Task} {m : Vm} {ph : Phys} {e : VmEnv}

lemma FramesInv.frame_ne {p : Pmm} {heap : List ℕ} {d d' : PageDir} {ds : List PageDir}
    (h : FramesInv p heap (d :: ds)) (hd : d' ∈ ds) : d.frame ≠ d'.frame := by
  intro heq
  have hn := h.holds.ledger.nodup
  rw [sysAll_cons, add_assoc, Multiset.nodup_add] at hn
  refine Multiset.disjoint_left.1 hn.2.2 (Multiset.mem_cons_self _ _) ?_
  rw [heq]
  exact Multiset.mem_add.2 (.inl (mem_sysAll hd (Multiset.mem_cons_self _ _)))

namespace TasksOk

section

variable (h : TasksOk s)
include h

lemma breakOk (ht : s.task? i = some t) : t.BreakOk :=
  h.breaks t (mem_of_getElem? (task?_eq_some.1 ht))

lemma length_others (ht : s.task? i = some t) : (s.others i).length ≤ 16 := by
  have hle := (dirs_perm ht).length_eq
  have hl := h.live
  have hd := h.dead
  rw [s.length_dirs, length_cons] at hle
  unfold maxTasks at hl
  omega

lemma put (ht : s.task? i = some t) (hb : t'.BreakOk) : TasksOk (s.put i m t') where
  live := by
    have := h.live
    rwa [← countP_isSome_set { t' with dir := m.dir } (task?_eq_some.1 ht)] at this
  dead := h.dead
  breaks := by
    intro u hu
    rcases mem_or_eq_of_mem_set hu with hu | hu
    · exact h.breaks u hu
    · obtain rfl := Option.some.inj hu
      exact hb
  idle := by
    obtain ⟨t0, h0⟩ := h.idle
    obtain ⟨hi, -⟩ := List.getElem?_eq_some_iff.1 (task?_eq_some.1 ht)
    by_cases hi0 : i = 0
    · subst hi0
      refine ⟨{ t' with dir := m.dir }, task?_eq_some.2 ?_⟩
      exact getElem?_set_self hi
    · refine ⟨t0, task?_eq_some.2 ?_⟩
      exact (getElem?_set_ne hi0).trans (task?_eq_some.1 h0)

lemma setPhys (hp : FramesInv ph.pmm ph.heap s.dirs) : MemInv { s with toPhys := ph } :=
  ⟨⟨h.live, h.dead, h.breaks, h.idle⟩, hp⟩

lemma append (hslot : s.checkFreeTaskSlot = true)
    (hp : FramesInv ph.pmm ph.heap (t.dir :: s.dirs)) (hb : t.BreakOk) :
    MemInv (s.append ph t) where
  frames := hp.perm append_perm.symm
  live := by
    unfold Machine.checkFreeTaskSlot at hslot
    unfold Machine.append
    simp only [decide_eq_true_eq] at hslot
    simp [countP_append]
    omega
  dead := h.dead
  breaks := by
    intro u hu
    rcases mem_append.1 hu with hu | hu
    · exact h.breaks u hu
    · obtain rfl : u = t := by simpa using hu
      exact hb
  idle := by
    obtain ⟨t0, h0⟩ := h.idle
    have h0 := task?_eq_some.1 h0
    obtain ⟨hi, -⟩ := List.getElem?_eq_some_iff.1 h0
    refine ⟨t0, task?_eq_some.2 ?_⟩
    exact (getElem?_append_left hi).trans h0

lemma kernelDir_cases (ht : s.task? i = some t) :
    (i = 0 ∧ s.kernelDir = t.dir.frame) ∨ ∃ d ∈ s.otherTasks i, s.kernelDir = d.frame := by
  obtain ⟨t0, h0⟩ := h.idle
  have hk : s.kernelDir = t0.dir.frame := by simp [kernelDir, h0]
  by_cases hi : i = 0
  · subst hi
    rw [h0] at ht
    exact .inl ⟨rfl, Option.some.inj ht ▸ hk⟩
  · refine .inr ⟨t0.dir, mem_filterMap.2 ⟨some t0, ?_, rfl⟩, hk⟩
    refine mem_eraseIdx_iff_getElem?.2 ⟨0, Ne.symm hi, task?_eq_some.1 h0⟩

lemma cleaned {d curr : PageDir}
    (hp : FramesInv ph.pmm ph.heap (d :: s.dirs)) (hc : curr ∈ s.dirs) :
    MemInv { s with toPhys := { ph with
      pmm := cleanupProcessMemory curr.frame s.kernelDir ph.pmm d } } := by
  obtain ⟨t0, h0⟩ := h.idle
  have hk : s.kernelDir = t0.dir.frame := by simp [kernelDir, h0]
  have hmem : t0.dir ∈ s.dirs := (dirs_perm h0).mem_iff.2 mem_cons_self
  rw [hk]
  exact h.setPhys (hp.cleanup (hp.frame_ne hc) (hp.frame_ne hmem))

end

end TasksOk

namespace MemInv

lemma vm (h : MemInv s) (ht : s.task? i = some t) : (s.vm t).Inv (s.others i) :=
  h.frames.perm (dirs_perm ht)

lemma put (h : MemInv s) (ht : s.task? i = some t) (hm : m.Inv (s.others i)) (hb : t'.BreakOk) :
    MemInv (s.put i m t') :=
  ⟨h.toTasksOk.put ht hb, .perm hm (put_perm ht).symm⟩

lemma reap {ds : List PageDir} {heap : List ℕ} {curr kernel : PageDir} (hc : curr ∈ ds)
    (hk : kernel ∈ ds) : ∀ (zs : List PageDir) {p : Pmm}, FramesInv p heap (zs ++ ds) →
      FramesInv (zs.foldl (cleanupProcessMemory curr.frame kernel.frame) p) heap ds
  | [], _, h => h
  | _ :: zs, _, h =>
    reap hc hk zs (h.cleanup (h.frame_ne (mem_append_right zs hc))
      (h.frame_ne (mem_append_right zs hk)))

section

variable (h : MemInv s)
include h

section

variable (ht : s.task? i = some t)
include ht

lemma reapZombies :
    FramesInv (reapZombies t.dir.frame s) s.heap (t.dir :: s.otherTasks i) := by
  have hf : FramesInv s.pmm s.heap (s.zombies ++ t.dir :: s.otherTasks i) :=
    h.frames.perm ((dirs_perm ht).trans
      (@perm_append_comm _ (t.dir :: s.otherTasks i) s.zombies))
  have hc : t.dir ∈ t.dir :: s.otherTasks i := mem_cons_self
  unfold EsdumanOS.reapZombies
  rcases h.kernelDir_cases ht with ⟨-, hk⟩ | ⟨d, hd, hk⟩
  · rw [hk]
    exact reap hc hc s.zombies hf
  · rw [hk]
    exact reap hc (mem_cons_of_mem _ hd) s.zombies hf

lemma exitTask : MemInv (exitTask e s i t) := by
  unfold EsdumanOS.exitTask
  split_ifs with hi0
  · exact h
  have hg := task?_eq_some.1 ht
  obtain ⟨hi, hti⟩ := List.getElem?_eq_some_iff.1 hg
  refine ⟨⟨?_, le_refl 1, ?_, ?_⟩, ?_⟩
  · have hl := h.live
    have hs := countP_set (p := Option.isSome) (a := none) hi
    rw [hs]
    simp only [Option.isSome_none, Bool.false_eq_true, if_false]
    omega
  · intro u hu
    rcases mem_or_eq_of_mem_set hu with hu | hu
    · exact h.breaks u hu
    · exact absurd hu (by simp)
  · obtain ⟨t0, h0⟩ := h.idle
    refine ⟨t0, task?_eq_some.2 ?_⟩
    exact (getElem?_set_ne hi0).trans (task?_eq_some.1 h0)
  · refine (FramesInv.kfree (m := { s.toPhys with pmm := _ }) (h.reapZombies ht) e.released).perm ?_
    exact (perm_append_singleton t.dir _).symm.trans
      ((taskDirs_set (x := none) hi).symm.append_right [t.dir])

lemma scheduleOn : MemInv (scheduleOn e s t) where
  frames := by
    refine (FramesInv.kfree (m := { s.toPhys with pmm := _ }) (h.reapZombies ht) e.released).perm ?_
    unfold EsdumanOS.scheduleOn dirs
    rw [append_nil]
    exact (taskDirs_perm (task?_eq_some.1 ht)).symm
  live := h.live
  dead := Nat.zero_le 1
  breaks := h.breaks
  idle := h.idle

lemma doWrite {kernelMode : Bool} {addr : ℕ} {byte : UInt8} :
    MemInv (doWrite e s i t kernelMode addr byte).2 := by
  have hp := h.put ht (userWrite_inv e addr byte (h.vm ht)) (h.breakOk ht)
  unfold EsdumanOS.doWrite
  dsimp only
  split_ifs
  · exact hp
  · refine hp.exitTask (task?_eq_some.2 ?_)
    exact getElem?_set_self (List.getElem?_eq_some_iff.1 (task?_eq_some.1 ht)).1

lemma startProgram {fillOk : ℕ → Bool} {gs : List Segment} :
    MemInv (startProgram e fillOk gs s t) := by
  have hcl := clonePageDirectory_inv (e := e) (m := s.toPhys) h.frames
  unfold EsdumanOS.startProgram
  split_ifs with hslot
  · exact h
  rcases hc : clonePageDirectory e s.toPhys with ⟨_ | child, ph⟩
  · rw [hc] at hcl
    exact h.setPhys hcl.1
  · rw [hc] at hcl
    obtain ⟨hinv, -, -, husr⟩ := hcl
    have hload : LoadInv { ph with dir := child } s.dirs :=
      ⟨hinv, fun f hf => absurd hf (by simp [husr])⟩
    obtain ⟨hload, ha⟩ := loadImage_inv e fillOk gs hload
    dsimp only
    split_ifs with hok
    · refine h.append (by simpa using hslot) (.kmalloc hload.inv e.task) ?_
      rcases imageBreak_bounds (ha hok) with hz | hb
      · exact .inl hz
      · exact .inr ⟨hb.1, le_rfl, hb.2⟩
    · have hmem : t.dir ∈ s.dirs := (dirs_perm ht).mem_iff.2 mem_cons_self
      exact h.cleaned hload.inv hmem

lemma finishFork {child : PageDir} {r : Errno × Vm × PageDir} (hslot : s.checkFreeTaskSlot = true)
    (hdir : m.dir = t.dir)
    (hc : Copied m child (s.others i) r) : MemInv (finishFork e s i t r).2 := by
  -- the parent goes on with the pages it now shares, and the clone is not a task's yet
  have htasks : TasksOk (s.put i r.2.1 t) := h.toTasksOk.put ht (h.breakOk ht)
  have hmem : r.2.1.dir ∈ (s.put i r.2.1 t).dirs := (put_perm ht).mem_iff.2 mem_cons_self
  have hf : FramesInv r.2.1.pmm r.2.1.heap (r.2.2 :: (s.put i r.2.1 t).dirs) :=
    hc.inv.perm ((put_perm ht).symm.cons r.2.2)
  have hke : (s.put i r.2.1 t).kernelDir = s.kernelDir := put_kernelDir ht (hdir ▸ hc.frame)
  unfold EsdumanOS.finishFork
  rw [← hke]
  dsimp only
  split_ifs with hfa hk
  · exact htasks.cleaned hf hmem
  · exact htasks.cleaned (hf.kmalloc e.task) hmem
  · refine htasks.append ?_ (hf.kmalloc e.task) (h.breakOk (t := t) ht)
    rw [put_slot ht]
    exact hslot

/-- `sys_fork` gives up before a byte has changed, or goes on with a copy of the caller's pages. -/
lemma sysFork_cases :
    (∃ res ph, res ≠ .forked ∧ ph.mem = s.mem ∧ FramesInv ph.pmm ph.heap s.dirs ∧
      Machine.sysFork e s i t = (res, { s with toPhys := ph })) ∨
    s.checkFreeTaskSlot = true ∧ ∃ m child r, m.mem = s.mem ∧ m.dir = t.dir ∧
      Copied m child (s.others i) r ∧
      Machine.sysFork e s i t = EsdumanOS.finishFork e s i t r := by
  have hcl := clonePageDirectory_inv (e := e) (m := s.toPhys) h.frames
  unfold Machine.sysFork
  split_ifs with hslot
  · exact .inl ⟨_, s.toPhys, by simp, rfl, h.frames, rfl⟩
  rcases hc : clonePageDirectory e s.toPhys with ⟨_ | child, ph⟩ <;> rw [hc] at hcl
  · exact .inl ⟨_, ph, by simp, hcl.2, hcl.1, rfl⟩
  · obtain ⟨hinv, hmem, hz, -⟩ := hcl
    have hr := h.length_others ht
    exact .inr ⟨by simpa using hslot, { ph with dir := t.dir }, child, _, hmem, rfl,
      copyUserSpace_copied (hinv.perm ((dirs_perm ht).cons child)) hz (by omega), rfl⟩

lemma sysFork : MemInv (sysFork e s i t).2 := by
  rcases h.sysFork_cases (e := e) ht with
    ⟨res, ph, -, -, hf, heq⟩ | ⟨hslot, m, child, r, -, hdir, hc, heq⟩ <;> rw [heq]
  · exact h.setPhys hf
  · exact h.finishFork ht hslot hdir hc

end

end

end MemInv

lemma memStep_inv (a : MemStep) (h : MemInv s) : MemInv (memStep s a) := by
  unfold memStep
  cases ht : s.task? a.task with
  | none => exact h
  | some t =>
    have hb := h.breakOk ht
    cases a.op with
    | start fillOk image => exact h.startProgram ht
    | fork => exact h.sysFork ht
    | write kernelMode addr byte => exact h.doWrite ht
    | brk ebx =>
      obtain ⟨hinv, hbr⟩ := sysBrk_inv a.env ebx (h.vm ht) hb
      exact h.put ht hinv hbr
    | mmap length reserved => exact h.put ht (sysMmap_inv (h.vm ht)) hb
    | munmap addr length => exact h.put ht (sysMunmap_inv (h.vm ht)) hb
    | exit => exact h.exitTask ht
    | schedule => exact h.scheduleOn ht
    | kernelHeap taken released =>
      exact h.setPhys ((h.frames.kmalloc ⟨true, taken⟩).kfree released)

lemma memRun_inv (as : List MemStep) (h : MemInv s) : MemInv (memRun s as) :=
  foldl_invariant (fun _ a hs => memStep_inv a hs) as h

end Steps

section Boot

variable (b : Boot)

lemma Boot.dir_lookup (v : ℕ) :
    b.dir.lookup v = if v = idlePage then ⟨b.idleFrame, pageUserAccess⟩ else .zero := by
  unfold PageDir.lookup dir
  dsimp only
  by_cases htable : v / 1024 = idlePage / 1024
  · rw [if_pos htable]
    exact if_congr ⟨fun hv => by omega, fun hv => by rw [hv]⟩ rfl rfl
  · rw [if_neg htable, if_neg fun hv => htable (by rw [hv])]

lemma Boot.dir_present (v : ℕ) : b.dir.present v = decide (v = idlePage) := by
  unfold present
  rw [b.dir_lookup]
  by_cases hv : v = idlePage
  · simp [hv, pageUserAccess]
  · simp [hv, Pte.zero, pageAbsent]

lemma idlePage_lt : idlePage < userPages := by
  rw [userPages_eq]
  decide

lemma Boot.dir_usrFrames : b.dir.usrFrames = {b.idleFrame} := by
  have hm : ∀ v, b.dir.mapped v = if v = idlePage then some b.idleFrame else none := by
    intro v
    unfold mapped
    rw [b.dir_present, b.dir_lookup]
    by_cases hv : v = idlePage
    · simp [hv]
    · simp [hv]
  unfold usrFrames
  rw [held_some idlePage_lt (by rw [hm, if_pos rfl])]
  refine congrArg (b.idleFrame ::ₘ ·) (Multiset.eq_zero_of_forall_notMem fun f hf => ?_)
  obtain ⟨w, -, hne, hw⟩ := mem_heldOff.1 hf
  rw [hm, if_neg hne] at hw
  exact absurd hw (by simp)

lemma Boot.dir_sysFrames : b.dir.sysFrames = b.dirFrame ::ₘ {b.tableFrame} := by
  have hlt : idlePage / 1024 < userTables := by
    unfold userTables
    decide
  unfold sysFrames
  rw [held_some (x := b.tableFrame) hlt (by simp [dir])]
  refine congrArg (b.dirFrame ::ₘ b.tableFrame ::ₘ ·)
    (Multiset.eq_zero_of_forall_notMem fun f hf => ?_)
  obtain ⟨w, -, hne, hw⟩ := mem_heldOff.1 hf
  simp [dir, hne] at hw

lemma Boot.holds : b.pmm.Holds (b.dirFrame ::ₘ b.tableFrame ::ₘ (b.kernel : Multiset ℕ))
    {b.idleFrame} := by
  have hp : (b.dirFrame ::ₘ b.tableFrame ::ₘ (b.kernel : Multiset ℕ)) + {b.idleFrame} =
      (b.used : Multiset ℕ) := by
    rw [Multiset.add_comm, Multiset.singleton_add, Multiset.cons_swap b.dirFrame b.tableFrame]
    rfl
  have hn : b.used.Nodup := b.nodup
  refine ⟨⟨?_, ?_, ?_, ?_⟩, ?_, ?_⟩
  · intro f hf
    rw [hp] at hf
    exact b.range f (Multiset.mem_coe.1 hf)
  · intro f hf
    have hl := hf.1
    rw [hp, Multiset.coe_count, Nodup.count hn]
    unfold pmm
    exact if_congr ⟨fun h => h.resolve_left (by omega), .inr⟩ rfl rfl
  · have hn' : (b.used : Multiset ℕ).Nodup := Multiset.coe_nodup.2 hn
    rw [← hp] at hn'
    exact Multiset.nodup_of_le (Multiset.le_add_right _ _) hn'
  · intro f hf hi
    rw [Multiset.mem_singleton] at hi
    subst hi
    have hn' : (b.used : Multiset ℕ).Nodup := Multiset.coe_nodup.2 hn
    rw [← hp, Multiset.nodup_add] at hn'
    exact Multiset.disjoint_left.1 hn'.2.2 hf (Multiset.mem_singleton_self _)
  · intro f hf
    have hl : ¬ f < pmmLowMemoryFrames := not_lt.2 hf.1
    unfold pmm
    simp [hl]
  · intro f hf
    unfold pmm
    simp [hf]

lemma bootMachine_inv : MemInv (bootMachine b) where
  live := by
    change 1 ≤ maxTasks
    decide
  dead := Nat.zero_le 1
  breaks := by
    intro t ht
    obtain rfl : t = ⟨b.dir, 0, 0⟩ := by simpa [bootMachine] using ht
    exact .inl rfl
  idle := ⟨⟨b.dir, 0, 0⟩, rfl⟩
  frames := by
    have hdi : (bootMachine b).dirs = [b.dir] := rfl
    rw [hdi]
    refine ⟨?_, ?_, ?_⟩
    · rw [sysAll_cons, usrAll_cons, b.dir_usrFrames, b.dir_sysFrames]
      exact b.holds
    · intro d hd
      obtain rfl := mem_singleton.1 hd
      refine ⟨by rw [b.dir_usrFrames]; exact Multiset.nodup_singleton _, fun v _ hp => ?_⟩
      obtain rfl : v = idlePage := by simpa [b.dir_present] using hp
      refine ⟨by decide, ?_, by rfl⟩
      simp [opened, dir]
    · intro d hd v _ hp _
      obtain rfl := mem_singleton.1 hd
      obtain rfl : v = idlePage := by simpa [b.dir_present] using hp
      rw [b.dir_lookup, if_pos rfl, usrAll_cons, b.dir_usrFrames]
      simp [usrAll]

end Boot

section Accounts

variable {s : Machine} {f : ℕ}

lemma PageDir.count_usrFrames (d : PageDir) (f : ℕ) : d.usrFrames.count f =
    userVpns.countP fun v => d.present v && decide ((d.lookup v).frame = f) := by
  unfold usrFrames userVpns
  rw [count_held]
  simp [mapped_eq_some]

lemma Machine.pteCount_eq (s : Machine) (f : ℕ) : s.pteCount f = (usrAll s.dirs).count f := by
  have hsum : ∀ ds : List PageDir,
      (ds.map fun d => d.usrFrames.count f).sum = (usrAll ds).count f := by
    intro ds
    induction ds with
    | nil => simp [usrAll]
    | cons d ds ih => rw [map_cons, sum_cons, ih, usrAll_cons, Multiset.count_add]
  unfold pteCount
  simp only [← count_usrFrames]
  exact hsum s.dirs

lemma PageDir.uses_iff {d : PageDir} : d.Uses f ↔ f ∈ d.sysFrames ∨ f ∈ d.usrFrames := by
  unfold Uses sysFrames usrFrames
  rw [Multiset.mem_cons, mem_held, mem_held, or_assoc, eq_comm]
  simp only [mapped_eq_some, Option.map_eq_some_iff]

lemma dirs_of_alone {t : Task} (h0 : s.task? 0 = some t) (hr : ∀ i, i ≠ 0 → s.task? i = none)
    (hz : s.zombies = []) : s.dirs = [t.dir] := by
  have h0 := task?_eq_some.1 h0
  obtain ⟨l, hl⟩ : ∃ l, s.tasks = some t :: l := by
    cases hs : s.tasks with
    | nil => simp [hs] at h0
    | cons x l =>
      obtain rfl : x = some t := by simpa [hs] using h0
      exact ⟨l, rfl⟩
  have hn : ∀ x ∈ l, x = none := by
    intro x hx
    obtain ⟨i, hi, rfl⟩ := mem_iff_getElem.1 hx
    have := hr (i + 1) (by omega)
    unfold task? at this
    rw [hl, getElem?_cons_succ, getElem?_eq_getElem hi] at this
    exact this
  unfold dirs taskDirs
  have hid : Option.map Task.dir (some t) = some t.dir := rfl
  rw [hz, hl, append_nil, filterMap_cons_some hid, filterMap_eq_nil_iff.2]
  intro x hx
  rw [hn x hx]
  rfl

lemma MemInv.framesExact (h : MemInv s) : FramesExact s where
  counted := by
    intro f hf
    rw [s.pteCount_eq] at hf ⊢
    exact h.frames.refcount_eq (Multiset.count_pos.1 hf)
  allocated := by
    intro f hf
    rw [s.pteCount_eq] at hf
    exact h.frames.holds.allocated (Multiset.mem_add.2 (.inr (Multiset.count_pos.1 hf)))
  released := by
    intro t h0 hr hz f hl hlt hb
    have hh := h.frames.holds
    have hc := (hh.bits f ⟨hl, hlt⟩).1 hb
    rw [hh.ledger.count f ⟨hl, hlt⟩, dirs_of_alone h0 hr hz] at hc
    have hmem := Multiset.count_pos.1 (Nat.pos_of_ne_zero hc)
    rw [sysAll_cons, usrAll_cons] at hmem
    simp only [sysAll, usrAll, map_nil, sum_nil, add_zero, Multiset.mem_add,
      Multiset.mem_coe] at hmem
    rw [uses_iff]
    tauto

/-- In every run the reference count of a frame is the number of page table entries that map it. -/
theorem memRun_framesExact (b : Boot) (as : List MemStep) :
    FramesExact (memRun (bootMachine b) as) :=
  (memRun_inv as (bootMachine_inv b)).framesExact

end Accounts

end EsdumanOS
