import EsdumanOS.Proofs.DirTree
import EsdumanOS.Proofs.Mount
import EsdumanOS.WorkingDir

/-!
# Working directories stay valid

`cwd_id` is a slot number, and neither `fs_delete` nor `sys_mount` looks at it. As long as no call
deletes or replaces the directory of a task, its working directory stays what it was
(`cwdRun_valid`).
-/

namespace EsdumanOS

open Lib List Cwds

section Init

variable {io : Io} {root : ℕ} {alloc : ∀ sb : Superblock, Option (TableBlocks sb)} {d : Partition}
  {m : Mounting}

def HasTable (r : FsGlobals × Mounting) : Prop :=
  r.1.mounted = true → ∃ (sb : Superblock) (p : TableBlocks sb),
    r.1.tables = some ⟨sb, p⟩ ∧ tableAccepted sb p r.2.mem = true

lemma HasTable.refused {g : FsGlobals} (h : g.mounted = false) : HasTable (g, m) := by
  intro hm
  simp [h] at hm

lemma loadTables_hasTable {sb : Superblock} {p : TableBlocks sb} :
    HasTable (loadTables io root d sb p m) := by
  unfold loadTables
  dsimp only
  split_ifs with hdir hf ha
  · exact .refused rfl
  · exact .refused rfl
  · exact .refused rfl
  · intro _
    refine ⟨sb, p, rfl, ?_⟩
    rw [writeFatTable_mem]
    simpa using ha

lemma initFs_hasTable (b : Bcache) (mem : ℕ → UInt8) :
    HasTable (initFs io root alloc b mem) := by
  unfold initFs
  dsimp only
  split_ifs
  · exact .refused rfl
  · exact .refused rfl
  · split
    · unfold mountPartition
      dsimp only
      split_ifs
      · exact .refused rfl
      · exact .refused rfl
      · split
        · exact .refused rfl
        · exact loadTables_hasTable
    · unfold mountUnpartitioned formatAndMount
      dsimp only
      split_ifs
      · exact .refused rfl
      · exact .refused rfl
      · exact .refused rfl
      · exact .refused rfl
      · split
        · exact .refused rfl
        · exact loadTables_hasTable
      · exact .refused rfl

def dirsAfter (r : FsGlobals × Mounting) : Dirs :=
  match r.1.tables with
  | none => .none
  | some ⟨sb, p⟩ => .ofMemory sb p r.2.mem r.1.mounted

lemma HasTable.accepted {r : FsGlobals × Mounting} (h : HasTable r)
    (hm : (dirsAfter r).mounted = true) : (dirsAfter r).validate = true := by
  unfold dirsAfter at hm ⊢
  split at hm
  · simp [Dirs.none] at hm
  · rename_i sb p ht
    obtain ⟨sb', p', ht', ha⟩ := h hm
    rw [ht, Option.some.injEq, Sigma.mk.injEq] at ht'
    obtain ⟨rfl, hp⟩ := ht'
    rw [eq_of_heq hp]
    exact Dirs.tableAccepted_eq.symm.trans ha

/-- What `init_fs` leaves in memory is an `InitTable`. -/
lemma initFs_accepted (b : Bcache) (mem : ℕ → UInt8)
    (hm : (dirsAfter (initFs io root alloc b mem)).mounted = true) :
    (dirsAfter (initFs io root alloc b mem)).validate = true :=
  (initFs_hasTable b mem).accepted hm

end Init

section Invariant

variable {s : Cwds}

def TaskHome (s : Cwds) (t : CwdTask) : Prop :=
  t.home = s.serialOf t.cwdId ∧ (t.cwdId = 0 ∨ (s.dirs.mounted = true ∧ s.dirs.Dir t.cwdId))

/-- The serial numbers of a table tell its entries apart, and every number to come is a new one. -/
structure SerialInv (s : Cwds) : Prop where
  sound : s.dirs.mounted = true → s.dirs.Sound
  pos : 0 < s.next
  below : ∀ i < s.dirs.maxEntries, 0 < s.serial i ∧ s.serial i < s.next
  unique : ∀ i < s.dirs.maxEntries, ∀ j < s.dirs.maxEntries, s.serial i = s.serial j → i = j

structure CwdInv (s : Cwds) : Prop extends SerialInv s where
  tasks : ∀ t ∈ s.tasks, TaskHome s t

lemma CwdInv.valid (h : CwdInv s) : CwdsValid s := by
  intro t ht
  obtain ⟨hh, h0 | ⟨hm, hdir⟩⟩ := h.tasks t ht
  · rw [h0] at hh
    exact .inl ⟨h0, by simpa [serialOf] using hh⟩
  · by_cases h0 : t.cwdId = 0
    · rw [h0] at hh
      exact .inl ⟨h0, by simpa [serialOf] using hh⟩
    · refine .inr ⟨hm, t.cwdId, hdir.1.1, hdir.1.2, hdir.2, (h.sound hm).ids _ hdir.1, ?_⟩
      rw [hh, serialOf, if_neg h0]

lemma boot_serialInv (root : ℕ) (t : InitTable) : SerialInv (boot root t) := by
  refine ⟨fun hm => Dirs.sound_of_validate (t.accepted hm), Nat.succ_pos _, fun i hi => ?_,
    fun i _ j _ he => ?_⟩
  · exact ⟨Nat.succ_pos i, Nat.succ_lt_succ hi⟩
  · exact Nat.succ.inj he

/-- A table may keep an entry's number, and gives every other entry one that was never in use. -/
lemma SerialInv.renew (h : SerialInv s) {s' : Cwds}
    (hsound : s'.dirs.mounted = true → s'.dirs.Sound)
    (hnext : s'.next = s.next + s'.dirs.maxEntries)
    (hs : ∀ i < s'.dirs.maxEntries, s'.serial i = s.next + i ∨
      (i < s.dirs.maxEntries ∧ s'.serial i = s.serial i)) : SerialInv s' := by
  have hpos := h.pos
  refine ⟨hsound, by omega, fun i hi => ?_, fun i hi j hj he => ?_⟩
  · rcases hs i hi with hn | ⟨hi', hk⟩
    · omega
    · have := h.below i hi'
      omega
  · rcases hs i hi with hn | ⟨hi', hk⟩ <;> rcases hs j hj with hn' | ⟨hj', hk'⟩
    · omega
    · have := h.below j hj'
      omega
    · have := h.below i hi'
      omega
    · exact h.unique i hi' j hj' (by rw [← hk, ← hk', he])

lemma SerialInv.file (h : SerialInv s) (e : DirEnv) (op : FsOp) : SerialInv (s.file e op) := by
  have hd : ((s.dirs.run e op).2.mounted = true → (s.dirs.run e op).2.Sound) ∧
      (s.dirs.run e op).2.maxEntries = s.dirs.maxEntries := by
    rcases hm : s.dirs.mounted with _ | _
    · rw [Dirs.run_unmounted hm op]
      exact ⟨h.sound, rfl⟩
    · have he := Dirs.run_evolves (e := e) (h.sound hm) op
      exact ⟨fun _ => he.sound, he.maxEntries⟩
  refine h.renew hd.1 (by simp only [Cwds.file, hd.2]) fun i hi => ?_
  simp only [Cwds.file, hd.2] at hi ⊢
  split_ifs
  · exact .inl rfl
  · exact .inr ⟨hi, rfl⟩

lemma SerialInv.load (h : SerialInv s) (root : ℕ) (t : InitTable) : SerialInv (s.load root t) := by
  refine h.renew (fun hm => Dirs.sound_of_validate (t.accepted hm)) rfl fun i _ => ?_
  simp only [Cwds.load]
  split_ifs with hk
  · exact .inr ⟨hk.2.1, rfl⟩
  · exact .inl rfl

/-- A `sys_mount` fails its checks and leaves everything, or it replaces the table. -/
lemma mount_cases (uid : ℕ) (c : MountCall) :
    s.mount uid c = s ∨ ((uid = 0 ∧ c.target ≠ none ∧ c.target ≠ some s.root ∧
      c.fileOpen = false ∧ c.flush = .ok) ∧ ∃ root t, s.mount uid c = s.load root t) := by
  unfold mount
  split
  · exact .inl rfl
  · split
    · exact .inl rfl
    · split_ifs
      · exact .inl rfl
      · exact .inl rfl
      · exact .inl rfl
      all_goals exact .inr ⟨by simp_all, _, _, rfl⟩

lemma umount_cases (uid : ℕ) (fileOpen : Bool) (flush : Errno) :
    s.umount uid fileOpen flush = s ∨ ((uid = 0 ∧ s.root ≠ 0 ∧ fileOpen = false ∧ flush = .ok) ∧
      ∃ root t, s.umount uid fileOpen flush = s.load root t) := by
  unfold umount
  split_ifs with hu hr ho hf
  · exact .inl rfl
  · exact .inl rfl
  · exact .inl rfl
  · exact .inl rfl
  · exact .inr ⟨by simp_all, _, _, rfl⟩

lemma cwdStep_serialInv (s : Cwds) (a : CwdStep) (h : SerialInv s) : SerialInv (cwdStep s a) := by
  obtain ⟨task, uid, gid, call⟩ := a
  cases call with
  | fork | exec =>
    simp only [cwdStep, createProcess]
    split <;> exact ⟨h.sound, h.pos, h.below, h.unique⟩
  | exit => exact ⟨h.sound, h.pos, h.below, h.unique⟩
  | chdir path =>
    simp only [cwdStep, sysChdir]
    split
    · exact h
    · split <;> exact ⟨h.sound, h.pos, h.below, h.unique⟩
  | file e op => exact h.file e op
  | mount c =>
    simp only [cwdStep]
    rcases mount_cases uid c with hs | ⟨-, root, t, hs⟩ <;> rw [hs]
    · exact h
    · exact h.load root t
  | umount fileOpen flush =>
    simp only [cwdStep]
    rcases umount_cases uid fileOpen flush with hs | ⟨-, root, t, hs⟩ <;> rw [hs]
    · exact h
    · exact h.load root t

/-- No two entries of the table ever carry the same number, whatever the calls. -/
lemma cwdRun_serialInv (root : ℕ) (t : InitTable) (calls : List CwdStep) :
    SerialInv (cwdRun (boot root t) calls) :=
  foldl_invariant cwdStep_serialInv calls (boot_serialInv root t)

lemma boot_cwdInv (root : ℕ) (t : InitTable) : CwdInv (boot root t) := by
  refine ⟨boot_serialInv root t, fun u hu => ?_⟩
  rw [boot, mem_singleton] at hu
  subst hu
  exact ⟨rfl, .inl rfl⟩

lemma createProcess_tasks (h : CwdInv s) (i : ℕ) :
    ∀ u ∈ (createProcess s i).tasks, TaskHome (createProcess s i) u := by
  unfold createProcess
  split
  · exact h.tasks
  · rename_i t ht
    intro u hu
    rcases mem_append.1 hu with hu | hu
    · exact h.tasks u hu
    · rw [mem_singleton] at hu
      subst hu
      exact h.tasks t (mem_of_getElem? ht)

lemma sysChdir_tasks (h : CwdInv s) {uid gid i : ℕ} {path : List Char}
    (hok : s.dirs.mounted = true ∨ ∀ t ∈ s.tasks[i]?,
      ∀ target, s.dirs.resolveDirFromCwd uid gid t.cwdId path = .ok target → target = 0) :
    ∀ u ∈ (sysChdir s uid gid i path).tasks, TaskHome (sysChdir s uid gid i path) u := by
  unfold sysChdir
  split
  · exact h.tasks
  · rename_i t ht
    split
    · exact h.tasks
    · rename_i target hr
      intro u hu
      rcases mem_or_eq_of_mem_set hu with hu | rfl
      · exact h.tasks u hu
      · refine ⟨rfl, ?_⟩
        rcases hok with hm | hz
        · have hc : s.dirs.Place t.cwdId := by
            obtain ⟨-, h0 | hdir⟩ := h.tasks t (mem_of_getElem? ht)
            · exact .inl h0
            · exact .inr hdir.2
          rcases (h.sound hm).resolveDirFromCwd hc hr with h0 | hdir
          · exact .inl h0
          · exact .inr ⟨hm, hdir⟩
        · exact .inl (hz t ht target hr)

/-- A task in the root directory stays there under any table. -/
lemma TaskHome.root {s' : Cwds} {t : CwdTask} (h : TaskHome s t) (h0 : t.cwdId = 0) :
    TaskHome s' t :=
  ⟨by simpa [serialOf, h0] using h.1, .inl h0⟩

lemma file_tasks (h : CwdInv s) {e : DirEnv} {op : FsOp}
    (hok : ∀ t ∈ s.tasks, t.cwdId ≠ 0 → s.dirs.empties e op ≠ some t.cwdId) :
    ∀ t ∈ s.tasks, TaskHome (s.file e op) t := by
  intro t ht
  by_cases h0 : t.cwdId = 0
  · exact (h.tasks t ht).root h0
  · obtain ⟨hh, hp⟩ := h.tasks t ht
    obtain ⟨hm, hdir⟩ := hp.resolve_left h0
    have he := Dirs.run_evolves (e := e) (h.sound hm) op
    refine ⟨?_, .inr ⟨he.mounted.trans hm, he.dir hdir (hok t ht h0)⟩⟩
    simpa [serialOf, h0, file, hdir.1.2] using hh

lemma cwdStep_cwdInv (s : Cwds) (a : CwdStep) (h : CwdInv s) (hok : CwdsSpared s a) :
    CwdInv (cwdStep s a) := by
  refine ⟨cwdStep_serialInv s a h.toSerialInv, ?_⟩
  obtain ⟨task, uid, gid, call⟩ := a
  cases call with
  | fork => exact createProcess_tasks h task
  | exec => exact createProcess_tasks h task
  | exit => exact fun t ht => h.tasks t (mem_of_mem_eraseIdx ht)
  | chdir path => exact sysChdir_tasks h hok
  | file e op => exact file_tasks h hok
  | mount c =>
    simp only [cwdStep]
    rcases mount_cases uid c with hs | ⟨⟨hu, ht, hr, ho, hf⟩, root, t, hs⟩ <;> rw [hs]
    · exact h.tasks
    · exact fun u hm => (h.tasks u hm).root (hok hu ht hr ho hf u hm)
  | umount fileOpen flush =>
    simp only [cwdStep]
    rcases umount_cases uid fileOpen flush with hs | ⟨⟨hu, hr, ho, hf⟩, root, t, hs⟩ <;> rw [hs]
    · exact h.tasks
    · exact fun u hm => (h.tasks u hm).root (hok hu hr ho hf u hm)

end Invariant

/-- In a run that spares the working directories every one of them stays valid, and the serial
numbers that tell the directories apart differ. -/
theorem cwdRun_valid (root : ℕ) (t : InitTable) (calls : List CwdStep)
    (hok : StepsMeet cwdStep CwdsSpared (boot root t) calls) :
    CwdsValid (cwdRun (boot root t) calls) ∧
      SerialInv (cwdRun (boot root t) calls) :=
  ⟨(foldl_induction cwdStep_cwdInv calls (boot_cwdInv root t) hok).valid,
    cwdRun_serialInv root t calls⟩

def emptyTable : InitTable := ⟨⟨true, 8, 100, fun _ => .zero⟩, fun _ => by decide⟩

def rootCall (task : ℕ) (call : CwdCall) : CwdStep := ⟨task, 0, 0, call⟩

/-- The table is replaced while the one task is in the root directory; later a task in a directory
starts another one and removes a directory nobody is in. -/
theorem cwdRun_valid_fork : CwdsValid (cwdRun (boot 1 emptyTable)
    [rootCall 0 (.mount ⟨some 2, false, .ok, fun _ => true, emptyTable, emptyTable⟩),
      rootCall 0 (.file plainDirEnv (.mkdir ['a'] 0)),
      rootCall 0 (.file plainDirEnv (.mkdir ['b'] 0)), rootCall 0 (.chdir ['a']), rootCall 0 .fork,
      rootCall 1 (.file plainDirEnv (.delete ['b'] 0))]) := by
  refine And.left (cwdRun_valid 1 emptyTable _ ⟨?_, ?_, ?_, .inl rfl, trivial, ?_, trivial⟩)
  all_goals simp only [CwdsSpared, rootCall]
  all_goals decide

/-- A task whose directory is removed stands in the directory that takes the slot. -/
theorem cwdRun_delete_dangles :
    let s := cwdRun (boot 1 emptyTable)
      [rootCall 0 (.file plainDirEnv (.mkdir ['a'] 0)), rootCall 0 (.chdir ['a']),
        rootCall 0 (.file plainDirEnv (.delete ['a'] 0))]
    let s' := cwdStep s (rootCall 0 (.file plainDirEnv (.mkdir ['b'] 0)))
    ¬ CwdsValid s ∧ ¬ CwdsValid s' ∧ s'.tasks.map (fun t => (s'.dirs.table t.cwdId).filename) =
      [['b']] := by
  refine ⟨fun h => ?_, fun h => ?_, by decide⟩
  all_goals
    specialize h ⟨1, 10⟩ (by decide)
    revert h
    decide

end EsdumanOS
