import EsdumanOS.Proofs.Descriptors
import EsdumanOS.Proofs.Replace

/-!
# Runs of descriptor calls

Over any run the reference counts are the numbers of descriptors, unless exec finds descriptor 0
closed (`ClobbersStd`). A dirty file is committed before the last descriptor frees it, unless dup2
copies over that descriptor (`DropsDirty`).
-/

namespace EsdumanOS

open Lib List Function Fd Counted

variable {a : ℕ} {f : VfsFile}

section Exec

/-- An exec that succeeds finds descriptor 0 closed, and 1 or 2 open on a pipe or a file. -/
def ClobbersStd (s : Kernel) : Env × FdOp → Prop
  | (e, .exec t loaded) =>
    loaded = .ok ∧ ¬ .lockdown ≤ e.secLevel ∧ s.tasks.length < maxTasks ∧
      ∃ tb fd0, s.tasks[t]? = some tb ∧ tb[0]? = some fd0 ∧ fd0.type = .none ∧
        ∃ fd, (tb[1]? = some fd ∨ tb[2]? = some fd) ∧ fd.obj ≠ none
  | _ => False

variable {e : Env} {s : Kernel} {t : ℕ} {tb l : List Fd} {o : Objects}

lemma standardFds_length (tb : List Fd) : (standardFds tb).length = tb.length := by
  unfold standardFds
  split
  · split_ifs <;> rfl
  · rfl

lemma standardFds_counted (h : Counted o (tb ++ l))
    (hs : ∀ fd0, tb[0]? = some fd0 → fd0.type = .none →
      ∀ fd, tb[1]? = some fd ∨ tb[2]? = some fd → fd.obj = none) :
    Counted o (standardFds tb ++ l) := by
  unfold standardFds
  split
  · rename_i fd0 fd1 fd2 tb
    split_ifs with h0
    · have ho : fd0.obj = none := by simp [obj, h0]
      have hob := hs fd0 rfl h0 fd1 (.inl rfl)
      have hoj := hs fd0 rfl h0 fd2 (.inr rfl)
      simp only [cons_append, cons_none ho, cons_none hob,
        cons_none hoj] at h
      simp only [cons_append]
      rw [cons_none rfl, cons_none rfl, cons_none rfl]
      exact h
    · exact h
  · exact h

lemma loadAndExecElf_inv (h : FdInv s) {loaded : Errno}
    (hs : ¬ ClobbersStd s (e, .exec t loaded)) : FdInv (loadAndExecElf e s t loaded).2 := by
  unfold loadAndExecElf
  rcases ht : s.tasks[t]? with _ | tb
  · exact h
  dsimp only
  split_ifs with hl hslot hloaded
  · exact h
  · exact h
  · exact h
  · obtain ⟨htb, hc⟩ := inherit_inv h ht
    have hlt : s.tasks.length < maxTasks := by simpa [checkFreeTaskSlot] using hslot
    rw [htb]
    refine h.add_task hlt ?_ (standardFds_counted hc fun fd0 h0 hn fd hf => ?_)
    · rw [standardFds_length]
      exact h.tables tb (mem_of_getElem? ht)
    · by_contra ho
      exact hs ⟨not_not.1 hloaded, hl, hlt, tb, fd0, ht, h0, hn, fd, hf, ho⟩

lemma fdStep_inv (h : FdInv s) (call : Env × FdOp) (hs : ¬ ClobbersStd s call) :
    FdInv (fdStep s call) := by
  obtain ⟨e, op⟩ := call
  cases op with
  | pipe => exact sysPipe_inv h
  | openFile => exact sysOpen_inv h
  | write => exact sysWrite_inv h
  | dup2 => exact sysDup2_inv h
  | close => exact sysClose_inv h
  | fork => exact sysFork_inv h
  | exec => exact loadAndExecElf_inv h hs
  | exit => exact reapTask_inv h

lemma bootKernel_inv (fs : Fs) : FdInv (bootKernel fs) := by
  refine ⟨⟨fun x => ?_, fun _ _ => ⟨rfl, rfl⟩, by simp [bootKernel], ?_⟩, ?_, ?_⟩
  · have hn : handles obj (bootKernel fs).tasks.flatten x = 0 := by
      simp [handles, bootKernel, countP_replicate, obj, unused]
    cases x <;> rfl
  · intro fd hf
    have : fd = .unused := by simpa [bootKernel, maxFdPerTask] using hf
    subst this
    exact ⟨by simp [unused], by simp [unused]⟩
  · simp [bootKernel]
  · simp [bootKernel, maxTasks]

end Exec

section Exact

def slotCount (s : Kernel) (p : Fd → Bool) : ℕ :=
  (s.tasks.map fun tb => tb.countP p).sum

def Fd.isReadEnd (p : ℕ) (fd : Fd) : Bool := fd.type = .pipe ∧ fd.ptr = p ∧ fd.mode ≠ 1
def Fd.isWriteEnd (p : ℕ) (fd : Fd) : Bool := fd.type = .pipe ∧ fd.ptr = p ∧ fd.mode = 1
def Fd.isFile (a : ℕ) (fd : Fd) : Bool := fd.type = .file ∧ fd.ptr = a

/-- Every count is the number of descriptors, and no descriptor points to a freed file. -/
structure CountsExact (s : Kernel) : Prop where
  readRefs : ∀ p, (s.objs.pipes p).readRefs = slotCount s (isReadEnd p)
  writeRefs : ∀ p, (s.objs.pipes p).writeRefs = slotCount s (isWriteEnd p)
  refCount : ∀ a f, s.objs.files a = some f → f.refCount = slotCount s (isFile a)
  noDangling : ∀ a, s.objs.files a = none → slotCount s (isFile a) = 0

variable {s : Kernel}

def FdObj.slot : FdObj → Fd → Bool
  | .readEnd p => isReadEnd p
  | .writeEnd p => isWriteEnd p
  | .file a => isFile a

lemma handles_eq (x : FdObj) : handles obj s.tasks.flatten x = slotCount s x.slot := by
  rw [slotCount, ← countP_flatten, handles]
  refine countP_congr fun fd _ => ?_
  rcases fd with ⟨_ | _ | _ | _ | _, q, m⟩ <;> cases x <;> by_cases hm : m = 1 <;>
    simp [obj, FdObj.slot, isReadEnd, isWriteEnd, isFile, hm]

lemma FdInv.countsExact (h : FdInv s) : CountsExact s where
  readRefs p := (h.counted.exact (.readEnd p)).trans (congrArg Nat.cast (handles_eq _))
  writeRefs p := (h.counted.exact (.writeEnd p)).trans (congrArg Nat.cast (handles_eq _))
  refCount a f hf := (h.counted.refCount_eq hf).trans (congrArg Nat.cast (handles_eq _))
  noDangling a ha := by
    have := h.counted.exact (.file a)
    simp only [Objects.refs, ha, Option.elim_none] at this
    exact (handles_eq (.file a)).symm.trans (by omega)

lemma fdRun_inv (h : FdInv s) {calls : List (Env × FdOp)}
    (hc : StepsMeet fdStep (fun s call => ¬ ClobbersStd s call) s calls) :
    FdInv (fdRun s calls) := by
  have hs : ∀ s call, FdInv s → ¬ ClobbersStd s call → FdInv (fdStep s call) :=
    fun s call h hca => fdStep_inv h call hca
  exact foldl_induction hs calls h hc

/-- In every run whose execs leave open standard descriptors alone the counts are exact. -/
theorem fdRun_countsExact (fs : Fs) (calls : List (Env × FdOp))
    (hcalls : StepsMeet fdStep (fun s call => ¬ ClobbersStd s call) (bootKernel fs) calls) :
    CountsExact (fdRun (bootKernel fs) calls) :=
  (fdRun_inv (bootKernel_inv fs) hcalls).countsExact

lemma bootKernel_not_clobbers (fs : Fs) :
    ¬ ClobbersStd (bootKernel fs) (.plain, .exec 0 .ok) := by
  rintro ⟨-, -, -, tb, fd0, ht, -, -, fd, hf, ho⟩
  have ht : tb = List.replicate maxFdPerTask .unused := by simpa [bootKernel] using ht.symm
  subst ht
  rcases hf with hf | hf
  · exact ho (by rw [← Option.some.inj hf]; rfl)
  · exact ho (by rw [← Option.some.inj hf]; rfl)

/-- Init starts, opens a pipe and forks. -/
theorem fdRun_countsExact_fork :
    CountsExact (fdRun (bootKernel tinyFs)
      [(.plain, .exec 0 .ok), (.plain, .pipe 1 true .ok), (.plain, .fork 1 .ok)]) := by
  exact fdRun_countsExact tinyFs _ ⟨bootKernel_not_clobbers _, fun h => h, fun h => h, trivial⟩

/-- Init makes its standard output the end of a pipe, closes its standard input and runs a program:
the reference to the pipe stays. -/
theorem fdRun_leaks_pipe :
    let s := fdRun (bootKernel tinyFs)
      [(.plain, .exec 0 .ok), (.plain, .pipe 1 true .ok), (.plain, .dup2 1 4 1),
        (.plain, .close 1 0), (.plain, .exec 1 .ok)]
    (s.objs.pipes 1).writeRefs = 4 ∧ slotCount s (isWriteEnd 1) = 3 ∧ ¬ CountsExact s := by
  intro s
  have hrefs : (s.objs.pipes 1).writeRefs = 4 := by decide
  have hslots : slotCount s (isWriteEnd 1) = 3 := by decide
  refine ⟨hrefs, hslots, fun h => ?_⟩
  have := h.writeRefs 1
  exact absurd this (by decide)

end Exact

section Commit

def CommitThenFree (a : ℕ) (evs : List FileEvent) : Prop :=
  ∃ l₁ l₂ l₃, evs = l₁ ++ .commit a :: l₂ ++ .free a :: l₃

lemma CommitThenFree.append_left {evs : List FileEvent} (h : CommitThenFree a evs)
    (evs' : List FileEvent) : CommitThenFree a (evs' ++ evs) := by
  obtain ⟨l₁, l₂, l₃, rfl⟩ := h
  exact ⟨evs' ++ l₁, l₂, l₃, by simp⟩

lemma CommitThenFree.append_right {evs : List FileEvent} (h : CommitThenFree a evs)
    (evs' : List FileEvent) : CommitThenFree a (evs ++ evs') := by
  obtain ⟨l₁, l₂, l₃, rfl⟩ := h
  exact ⟨l₁, l₂, l₃ ++ evs', by simp⟩

/-- A dirty file is still there and dirty, or it was committed and then freed. -/
def NoLoss (o o' : Objects) : Prop :=
  ∃ evs, o'.log = o.log ++ evs ∧ ∀ a f, o.files a = some f → f.dirty = true →
    (∃ f', o'.files a = some f' ∧ f'.dirty = true) ∨ CommitThenFree a evs

variable {e : Env} {o o' o'' : Objects} {fd : Fd}

lemma NoLoss.of_same (hl : o'.log = o.log) (hfi : o'.files = o.files) : NoLoss o o' :=
  ⟨[], by simp [hl], fun a f hf hd => .inl ⟨f, by rw [hfi]; exact hf, hd⟩⟩

lemma NoLoss.refl (o : Objects) : NoLoss o o := NoLoss.of_same rfl rfl

lemma NoLoss.trans (h : NoLoss o o') (h' : NoLoss o' o'') : NoLoss o o'' := by
  obtain ⟨evs, hl, he⟩ := h
  obtain ⟨evs', hl', he'⟩ := h'
  refine ⟨evs ++ evs', by rw [hl', hl, append_assoc], fun a f hf hd => ?_⟩
  rcases he a f hf hd with ⟨f', hf', hd'⟩ | hc
  · exact (he' a f' hf' hd').imp_right fun hc => hc.append_left evs
  · exact .inr (hc.append_right evs')

lemma NoLoss.setFile (h : ∀ f0, o.files a = some f0 → f0.dirty = true → f.dirty = true) :
    NoLoss o (o.setFile a f) := by
  refine ⟨[], by simp, fun b f0 hf hd => .inl ?_⟩
  by_cases hb : b = a
  · subst hb
    exact ⟨f, by simp, h f0 hf hd⟩
  · exact ⟨f0, by simpa [update_of_ne hb] using hf, hd⟩

lemma dropPipe_noLoss : NoLoss o (dropPipe o fd) := by
  unfold dropPipe destroyPipe
  dsimp only
  split_ifs <;> exact .of_same rfl rfl

lemma takePipe_noLoss : NoLoss o (takePipe o fd) := by
  unfold takePipe
  split_ifs <;> exact .of_same rfl rfl

lemma closeFile_noLoss : NoLoss o (closeFile e o a).2 := by
  rcases hf : o.files a with _ | f
  · have : (closeFile e o a).2 = o := by simp [closeFile, hf]
    rw [this]
    exact .refl o
  · obtain ⟨-, hfi, hl⟩ := @closeFile_eq e o a f hf
    refine ⟨_, hl, fun b f0 hf0 hd => ?_⟩
    rw [hfi]
    by_cases hb : b = a
    · subst hb
      split_ifs
      · exact .inr ⟨[], [], [], rfl⟩
      · have : f0 = f := Option.some.inj (hf0.symm.trans hf)
        subst this
        exact .inl ⟨f0.bump (-1), by simp, hd⟩
    · exact .inl ⟨f0, by simpa [update_of_ne hb] using hf0, hd⟩

lemma closeFd_noLoss : NoLoss o (closeFd e o fd).2 := by
  unfold closeFd
  rcases fd.type
  case pipe => exact dropPipe_noLoss
  case file =>
    split_ifs
    · exact .refl o
    · exact closeFile_noLoss
  all_goals exact .refl o

lemma closeFds_noLoss : ∀ (tb : List Fd) {o : Objects},
    NoLoss o (tb.foldl (fun o fd => (closeFd e o fd).2) o)
  | [], o => .refl o
  | _ :: tb, _ => closeFd_noLoss.trans (closeFds_noLoss tb)

lemma dup2Drop_noLoss (h : ∀ f, fd.type = .file → o.files fd.ptr = some f → f.dirty = true →
    1 < f.refCount) : NoLoss o (dup2Drop o fd) := by
  unfold dup2Drop
  rcases ht : fd.type
  case pipe => exact dropPipe_noLoss
  case file =>
    split_ifs
    · exact .refl o
    rcases hf : o.files fd.ptr with _ | f
    · have : dup2File o fd.ptr = o := by simp [dup2File, hf]
      rw [this]
      exact .refl o
    obtain ⟨-, hfi, hl⟩ := dup2File_eq hf
    refine ⟨_, hl, fun b f0 hf0 hd => .inl ?_⟩
    rw [hfi]
    by_cases hb : b = fd.ptr
    · subst hb
      have heq : f0 = f := Option.some.inj (hf0.symm.trans hf)
      subst heq
      have := h f0 ht hf hd
      exact ⟨f0.bump (-1), by rw [if_neg (by omega)]; simp, hd⟩
    · exact ⟨f0, by simpa [update_of_ne hb] using hf0, hd⟩
  all_goals exact .refl o

lemma setFile_bump_noLoss (hf : o.files a = some f) :
    NoLoss o (o.setFile a (f.bump 1)) := by
  refine .setFile fun f0 hf0 hd => ?_
  have : f0 = f := Option.some.inj (hf0.symm.trans hf)
  exact this ▸ hd

lemma dup2Take_noLoss : NoLoss o (dup2Take o fd) := by
  unfold dup2Take takeFile
  rcases fd.type
  case pipe => exact takePipe_noLoss
  case file =>
    split_ifs
    · exact .refl o
    rcases hf : o.files fd.ptr with _ | f
    · exact .refl o
    · exact setFile_bump_noLoss hf
  all_goals exact .refl o

lemma inheritFd_noLoss : NoLoss o (inheritFd o fd).2 := by
  unfold inheritFd
  rcases fd.type
  case pipe => exact takePipe_noLoss
  case file =>
    split_ifs
    · exact .refl o
    rcases hf : o.files fd.ptr with _ | f
    · exact .refl o
    dsimp only
    split_ifs
    · exact setFile_bump_noLoss hf
    · exact .refl o
  all_goals exact .refl o

lemma inheritFdTable_noLoss : ∀ (tb : List Fd) {o : Objects}, NoLoss o (inheritFdTable o tb).2
  | [], o => .refl o
  | _ :: tb, _ => inheritFd_noLoss.trans (inheritFdTable_noLoss tb)

/-- A dup2 that succeeds replaces the last descriptor of a dirty file. -/
def DropsDirty (s : Kernel) : Env × FdOp → Prop
  | (_, .dup2 t oldfd newfd) =>
    ∃ tb src old f, s.tasks[t]? = some tb ∧ tb[oldfd]? = some src ∧ tb[newfd]? = some old ∧
      src.type ≠ .none ∧ oldfd ≠ newfd ∧ old.type = .file ∧ s.objs.files old.ptr = some f ∧
      f.dirty = true ∧ f.refCount ≤ 1
  | _ => False

variable {s : Kernel} {t : ℕ}

lemma sysPipe_noLoss {bufOk : Bool} {copied : Errno} :
    NoLoss s.objs (sysPipe s t bufOk copied).2.objs := by
  unfold sysPipe
  rcases s.tasks[t]? with _ | tb
  · exact .refl _
  split_ifs
  · exact .refl _
  rcases hc : createPipe s.objs with ⟨_ | p, o⟩
  · exact .refl _
  obtain ⟨hlo, hhi, -, rfl⟩ := createPipe_some hc
  have hf : NoLoss s.objs (destroyPipe (s.objs.setPipe p ⟨true, 1, 1⟩) p) := by
    rw [destroyPipe_setPipe hlo hhi]
    exact .of_same rfl rfl
  dsimp only
  rcases freeFd tb 3 with _ | fd1
  · exact hf
  dsimp only
  rcases freeFd tb (fd1 + 1) with _ | fd2
  · exact hf
  · exact .of_same rfl rfl

lemma sysOpen_noLoss {target : OpenTarget} {flags addr : ℕ} :
    NoLoss s.objs (sysOpen s t target flags addr).2.objs := by
  rcases @sysOpen_cases s t target flags addr with
    heq | ⟨tb, fd, -, -, ⟨idx, heq⟩ | ⟨-, hf, f, mode, -, heq⟩⟩
  · rw [heq]
    exact .refl _
  · rw [heq]
    exact .refl _
  · rw [heq]
    refine .setFile fun f0 hf0 => ?_
    rw [hf] at hf0
    exact absurd hf0 (by simp)

lemma fsWriteBuffered_dirty {data : Buf} {size : ℕ} {ok : Bool}
    (h : f.dirty = true) : (fsWriteBuffered f data size ok).2.dirty = true := by
  unfold fsWriteBuffered
  dsimp only
  split_ifs
  · exact h
  · exact h
  · exact h
  all_goals rfl

lemma sysWrite_noLoss {fd size : ℕ} {data : Buf} {bufOk kmallocOk kreallocOk : Bool}
    {driver : Errno ⊕ ℕ} :
    NoLoss s.objs (sysWrite s t fd data size bufOk kmallocOk kreallocOk driver).2.objs := by
  rcases @sysWrite_cases s t fd size data bufOk kmallocOk kreallocOk driver with
    heq | ⟨a, f, hf, heq⟩
  · rw [heq]
    exact .refl _
  · rw [heq]
    refine .setFile fun f0 hf0 hd => fsWriteBuffered_dirty ?_
    rwa [← Option.some.inj (hf0.symm.trans hf)]

lemma sysDup2_noLoss {oldfd newfd : ℕ} (h : ¬ DropsDirty s (e, .dup2 t oldfd newfd)) :
    NoLoss s.objs (sysDup2 s t oldfd newfd).2.objs := by
  rcases @sysDup2_cases s t oldfd newfd with heq | ⟨tb, src, old, ht, hs, ho, hty, hne, heq⟩
  · rw [heq]
    exact .refl _
  · rw [heq]
    refine (dup2Drop_noLoss fun f hfile hf hd => ?_).trans dup2Take_noLoss
    by_contra hle
    exact h ⟨tb, src, old, f, ht, hs, ho, hty, hne, hfile, hf, hd, not_lt.1 hle⟩

lemma sysClose_noLoss {fd : ℕ} : NoLoss s.objs (sysClose e s t fd).2.objs := by
  unfold sysClose
  rcases s.tasks[t]? with _ | tb
  · exact .refl _
  dsimp only
  rcases tb[fd]? with _ | desc
  · exact .refl _
  · exact closeFd_noLoss

lemma sysFork_noLoss {made : Errno} : NoLoss s.objs (sysFork s t made).2.objs := by
  unfold sysFork
  rcases s.tasks[t]? with _ | tb
  · exact .refl _
  split_ifs
  · exact .refl _
  · exact .refl _
  · exact inheritFdTable_noLoss tb

lemma loadAndExecElf_noLoss {loaded : Errno} :
    NoLoss s.objs (loadAndExecElf e s t loaded).2.objs := by
  unfold loadAndExecElf
  rcases s.tasks[t]? with _ | tb
  · exact .refl _
  split_ifs
  · exact .refl _
  · exact .refl _
  · exact .refl _
  · exact inheritFdTable_noLoss tb

lemma reapTask_noLoss : NoLoss s.objs (reapTask e s t).objs := by
  unfold reapTask
  split_ifs
  · exact .refl _
  rcases s.tasks[t]? with _ | tb
  · exact .refl _
  · exact closeFds_noLoss tb

lemma fdStep_noLoss (call : Env × FdOp) (h : ¬ DropsDirty s call) :
    NoLoss s.objs (fdStep s call).objs := by
  obtain ⟨e, op⟩ := call
  cases op with
  | pipe => exact sysPipe_noLoss
  | openFile => exact sysOpen_noLoss
  | write => exact sysWrite_noLoss
  | dup2 => exact sysDup2_noLoss h
  | close => exact sysClose_noLoss
  | fork => exact sysFork_noLoss
  | exec => exact loadAndExecElf_noLoss
  | exit => exact reapTask_noLoss

/-- Where no dup2 replaces the last descriptor of a dirty file, a call that takes it away has
committed the file. -/
theorem fdRun_commits (fs : Fs) (calls : List (Env × FdOp)) (call : Env × FdOp)
    (hcalls : StepsMeet fdStep (fun s call => ¬ ClobbersStd s call ∧ ¬ DropsDirty s call)
      (bootKernel fs) (calls ++ [call])) :
    ∃ evs, (fdStep (fdRun (bootKernel fs) calls) call).objs.log =
        (fdRun (bootKernel fs) calls).objs.log ++ evs ∧
      ∀ a f, (fdRun (bootKernel fs) calls).objs.files a = some f → f.dirty = true →
        (slotCount (fdStep (fdRun (bootKernel fs) calls) call) (isFile a) = 0 ∨
          (fdStep (fdRun (bootKernel fs) calls) call).objs.files a = none) →
        CommitThenFree a evs := by
  rw [StepsMeet.append] at hcalls
  obtain ⟨hrun, ⟨hstd, hdirty⟩, -⟩ := hcalls
  have hinv : FdInv (fdRun (bootKernel fs) calls) :=
    fdRun_inv (bootKernel_inv fs) (hrun.imp fun _ _ h => h.1)
  have hinv' := fdStep_inv hinv call hstd
  obtain ⟨evs, hlog, hev⟩ := fdStep_noLoss call hdirty
  refine ⟨evs, hlog, fun a f hf hd hgone => (hev a f hf hd).resolve_left ?_⟩
  rintro ⟨f', hf', -⟩
  rcases hgone with hzero | hnone
  · have hpos := hinv'.counted.live a f' hf'
    rw [hinv'.countsExact.refCount a f' hf', hzero] at hpos
    exact absurd hpos (by decide)
  · exact Option.some_ne_none f' (hf'.symm.trans hnone)

def writeA : List (Env × FdOp) :=
  [(.plain, .exec 0 .ok), (.plain, .openFile 1 (.entry nameA 0) 1 100)]

/-- Closing the descriptor commits the file. -/
theorem fdRun_commits_close :
    ∃ evs, (fdStep (fdRun (bootKernel oneFile) writeA) (.plain, .close 1 3)).objs.log =
        (fdRun (bootKernel oneFile) writeA).objs.log ++ evs ∧ CommitThenFree 100 evs := by
  have hfile : ∃ f, (fdRun (bootKernel oneFile) writeA).objs.files 100 = some f ∧
      f.dirty = true := ⟨_, rfl, rfl⟩
  obtain ⟨f, hf, hd⟩ := hfile
  obtain ⟨evs, hlog, h⟩ := fdRun_commits oneFile writeA (.plain, .close 1 3)
    ⟨⟨bootKernel_not_clobbers _, fun h => h⟩, ⟨fun h => h, fun h => h⟩, ⟨fun h => h, fun h => h⟩,
      trivial⟩
  exact ⟨evs, hlog, h 100 f hf hd (.inl (by decide))⟩

/-- Copying standard output over it frees the file, which was never committed. -/
theorem fdRun_dup2_drops :
    let s := fdRun (bootKernel oneFile) writeA
    let s' := fdStep s (.plain, .dup2 1 1 3)
    (∃ f, s.objs.files 100 = some f ∧ f.dirty = true) ∧ slotCount s (isFile 100) = 1 ∧
      slotCount s' (isFile 100) = 0 ∧ s'.objs.files 100 = none ∧ s'.objs.log = [.free 100] ∧
      .commit 100 ∉ s'.objs.log := by
  decide

end Commit

end EsdumanOS
