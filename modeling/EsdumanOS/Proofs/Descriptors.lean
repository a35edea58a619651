import EsdumanOS.Descriptors

/-!
# Descriptors and reference counts

The counts of pipes and files are exact for the bag of all descriptor slots (`Counted`); a call is a
chain of moves of one descriptor into the bag or out of it. Only exec changes a slot without
touching the object behind it, when it makes descriptors 1 and 2 the console although only 0 was
closed.
-/

namespace EsdumanOS

open Lib List Function Objects Fd VfsFile

section Objects

/-- What a descriptor holds a reference to. -/
inductive FdObj
  | readEnd (p : ℕ)
  | writeEnd (p : ℕ)
  | file (a : ℕ)
  deriving DecidableEq

def Fd.obj (fd : Fd) : Option FdObj :=
  match fd.type with
  | .pipe => some (if fd.mode = 1 then .writeEnd fd.ptr else .readEnd fd.ptr)
  | .file => some (.file fd.ptr)
  | _ => none

def Objects.refs (o : Objects) : FdObj → ℤ
  | .readEnd p => (o.pipes p).readRefs
  | .writeEnd p => (o.pipes p).writeRefs
  | .file a => (o.files a).elim 0 refCount

def Fd.PtrOk (fd : Fd) : Prop :=
  (fd.type = .pipe → 1 ≤ fd.ptr ∧ fd.ptr ≤ maxSystemPipes) ∧ (fd.type = .file → fd.ptr ≠ 0)

/-- The counts are exact for the bag `l`, and nothing is kept that has no descriptor. -/
structure Counted (o : Objects) (l : List Fd) : Prop where
  exact : ExactRefs obj o.refs l
  inactive : ∀ p, (o.pipes p).active = false → (o.pipes p).readRefs = 0 ∧ (o.pipes p).writeRefs = 0
  live : ∀ a f, o.files a = some f → 0 < f.refCount
  ptr : ∀ fd ∈ l, fd.PtrOk

variable {o : Objects} {fd : Fd} {l l' : List Fd} {x : FdObj} {d : ℤ}

lemma Fd.obj_file (h : fd.type = .file) : fd.obj = some (.file fd.ptr) := by
  simp [obj, h]

lemma Fd.obj_pipe (h : fd.type = .pipe) :
    fd.obj = some (if fd.mode = 1 then .writeEnd fd.ptr else .readEnd fd.ptr) := by
  simp [obj, h]

lemma Fd.obj_eq_none : fd.obj = none ↔ fd.type ≠ .pipe ∧ fd.type ≠ .file := by
  unfold obj
  rcases fd.type <;> simp

lemma Counted.perm (h : Counted o l) (hl : l ~ l') : Counted o l' where
  exact := h.exact.perm hl
  inactive := h.inactive
  live := h.live
  ptr fd hfd := h.ptr fd (hl.mem_iff.2 hfd)

lemma Counted.cons_none (hfd : fd.obj = none) : Counted o (fd :: l) ↔ Counted o l := by
  obtain ⟨hp, hf⟩ := obj_eq_none.1 hfd
  constructor
  · intro h
    exact ⟨(ExactRefs.cons_none hfd).1 h.exact, h.inactive, h.live, (forall_mem_cons.1 h.ptr).2⟩
  · intro h
    exact ⟨(ExactRefs.cons_none hfd).2 h.exact, h.inactive, h.live,
      forall_mem_cons.2 ⟨⟨fun ht => absurd ht hp, fun ht => absurd ht hf⟩, h.ptr⟩⟩

lemma Counted.active (h : Counted o l) (hf : fd ∈ l) (ht : fd.type = .pipe) :
    (o.pipes fd.ptr).active = true := by
  have hp := h.exact.pos hf (obj_pipe ht)
  by_contra ha
  have hz := h.inactive fd.ptr (by simpa using ha)
  split_ifs at hp <;> simp only [refs] at hp <;> omega

lemma Counted.file_of_mem (h : Counted o l) (hfd : fd ∈ l) (ht : fd.type = .file) :
    ∃ f, o.files fd.ptr = some f := by
  have hp := h.exact.pos hfd (obj_file ht)
  rcases hf : o.files fd.ptr with _ | f
  · simp [refs, hf] at hp
  · exact ⟨f, rfl⟩

lemma Counted.refCount_eq (h : Counted o l) {a : ℕ} {f : VfsFile} (hf : o.files a = some f) :
    f.refCount = handles obj l (.file a) := by
  have := h.exact (.file a)
  simpa [refs, hf] using this

lemma Pipe.bump_active (p : Pipe) (mode : ℕ) (d : ℤ) : (p.bump mode d).active = p.active := by
  unfold Pipe.bump
  split_ifs <;> rfl

lemma bump_refs (ht : fd.type = .pipe) (hx : fd.obj = some x) :
    (o.setPipe fd.ptr ((o.pipes fd.ptr).bump fd.mode d)).refs x = o.refs x + d ∧
      ∀ y, y ≠ x → (o.setPipe fd.ptr ((o.pipes fd.ptr).bump fd.mode d)).refs y = o.refs y := by
  rw [obj_pipe ht, Option.some.injEq] at hx
  subst hx
  unfold Pipe.bump
  split_ifs with hm
  · refine ⟨by simp [refs], fun y hy => ?_⟩
    cases y with
    | readEnd q => by_cases hq : q = fd.ptr <;> simp [refs, hq]
    | writeEnd q =>
      have hq : q ≠ fd.ptr := fun hq => hy (by rw [hq])
      simp [refs, hq]
    | file a => rfl
  · refine ⟨by simp [refs], fun y hy => ?_⟩
    cases y with
    | readEnd q =>
      have hq : q ≠ fd.ptr := fun hq => hy (by rw [hq])
      simp [refs, hq]
    | writeEnd q => by_cases hq : q = fd.ptr <;> simp [refs, hq]
    | file a => rfl

lemma setFile_refs {a : ℕ} {f : VfsFile} :
    (o.setFile a f).refs (.file a) = f.refCount ∧
      ∀ y, y ≠ .file a → (o.setFile a f).refs y = o.refs y := by
  refine ⟨by simp [refs], fun y hy => ?_⟩
  cases y with
  | readEnd q => rfl
  | writeEnd q => rfl
  | file b =>
    have hb : b ≠ a := fun hb => hy (by rw [hb])
    simp [refs, hb]

lemma inactive_setPipe {p : ℕ} {v : Pipe} (h : Counted o l)
    (hv : v.active = false → v.readRefs = 0 ∧ v.writeRefs = 0) (q : ℕ)
    (hq : ((o.setPipe p v).pipes q).active = false) :
    ((o.setPipe p v).pipes q).readRefs = 0 ∧ ((o.setPipe p v).pipes q).writeRefs = 0 := by
  by_cases hqp : q = p
  · subst hqp
    simp only [setPipe_pipes, update_self] at hq ⊢
    exact hv hq
  · simp only [setPipe_pipes, update_of_ne hqp] at hq ⊢
    exact h.inactive q hq

lemma live_setFile {a b : ℕ} {f f' : VfsFile} (h : Counted o l) (hf : 0 < f.refCount)
    (hb : (o.setFile a f).files b = some f') : 0 < f'.refCount := by
  by_cases hba : b = a
  · subst hba
    simp only [setFile_files, update_self, Option.some.injEq] at hb
    rwa [← hb]
  · rw [setFile_files, update_of_ne hba] at hb
    exact h.live b f' hb

end Objects

section Take

variable {o : Objects} {fd : Fd} {l : List Fd}

lemma takePipe_counted (h : Counted o l) (hf : fd ∈ l) (ht : fd.type = .pipe) :
    Counted (takePipe o fd) (fd :: l) := by
  have hne : fd.ptr ≠ 0 := by
    have := (h.ptr fd hf).1 ht
    omega
  obtain ⟨hs, ho⟩ := @bump_refs o fd _ 1 ht (obj_pipe ht)
  rw [takePipe, if_neg hne]
  refine ⟨h.exact.take (obj_pipe ht) hs ho, inactive_setPipe h fun hp => ?_, h.live,
    forall_mem_cons.2 ⟨h.ptr fd hf, h.ptr⟩⟩
  simp [Pipe.bump_active, h.active hf ht] at hp

lemma setFile_take_counted {f : VfsFile} (h : Counted o l) (hfd : fd ∈ l) (ht : fd.type = .file)
    (hf : o.files fd.ptr = some f) : Counted (o.setFile fd.ptr (f.bump 1)) (fd :: l) := by
  obtain ⟨hs, ho⟩ := @setFile_refs o fd.ptr (f.bump 1)
  have hol : o.refs (.file fd.ptr) = f.refCount := by simp [refs, hf]
  refine ⟨h.exact.take (obj_file ht) (by rw [hs, hol, bump]) ho, h.inactive,
    fun _ _ => live_setFile h ?_, forall_mem_cons.2 ⟨h.ptr fd hfd, h.ptr⟩⟩
  have := h.live _ f hf
  simp only [bump]
  omega

lemma inheritFd_counted (h : Counted o l) (hfd : fd ∈ l) (hl : l.length < 1000) :
    (inheritFd o fd).1 = fd ∧ Counted (inheritFd o fd).2 (fd :: l) := by
  rcases ht : fd.type
  case pipe =>
    rw [inheritFd, ht]
    exact ⟨rfl, takePipe_counted h hfd ht⟩
  case file =>
    obtain ⟨f, hf⟩ := h.file_of_mem hfd ht
    have hr : 0 ≤ f.refCount ∧ f.refCount < 1000 := by
      have := @handles_le_length _ _ _ obj l (.file fd.ptr)
      rw [h.refCount_eq hf]
      omega
    have heq : inheritFd o fd = (fd, o.setFile fd.ptr (f.bump 1)) := by
      simp [inheritFd, ht, (h.ptr fd hfd).2 ht, hf, hr]
    rw [heq]
    exact ⟨rfl, setFile_take_counted h hfd ht hf⟩
  all_goals
    rw [inheritFd, ht]
    exact ⟨rfl, (Counted.cons_none (by simp [obj, ht])).2 h⟩

/-- One slot after the other comes into the bag a second time. -/
lemma inheritFdTable_counted : ∀ (tb : List Fd) {o : Objects} {l : List Fd}, Counted o l →
    tb ⊆ l → l.length + tb.length < 1000 →
    (inheritFdTable o tb).1 = tb ∧ Counted (inheritFdTable o tb).2 (tb ++ l)
  | [], _, _, h, _, _ => ⟨rfl, h⟩
  | fd :: tb, o, l, h, hs, hl => by
    simp only [length_cons] at hl
    obtain ⟨h1, h2⟩ := inheritFd_counted h (hs mem_cons_self) (by omega)
    obtain ⟨hs1, hs2⟩ := inheritFdTable_counted tb h2
      (fun y hy => mem_cons_of_mem _ (hs (mem_cons_of_mem _ hy)))
      (by simp only [length_cons]; omega)
    refine ⟨by simp only [inheritFdTable]; rw [h1, hs1], ?_⟩
    exact hs2.perm perm_middle

end Take

section Drop

variable {e : Env} {o o' : Objects} {fd : Fd} {l : List Fd}

lemma dropPipe_counted (h : Counted o (fd :: l)) (ht : fd.type = .pipe) :
    Counted (dropPipe o fd) l := by
  obtain ⟨hlo, hhi⟩ := (h.ptr fd mem_cons_self).1 ht
  have hne : fd.ptr ≠ 0 := by omega
  obtain ⟨hs, ho⟩ := @bump_refs o fd _ (-1) ht (obj_pipe ht)
  have he := h.exact.drop (obj_pipe ht) hs ho
  have hpt := (forall_mem_cons.1 h.ptr).2
  have hr := he.nonneg (.readEnd fd.ptr)
  have hw := he.nonneg (.writeEnd fd.ptr)
  simp only [refs, setPipe_pipes, update_self] at hr hw
  have ha := h.active mem_cons_self ht
  rw [dropPipe, if_neg hne]
  dsimp only
  split_ifs with hz
  · -- both ends are gone, and destroying the pipe writes the zeros that are there
    rw [destroyPipe, if_pos ⟨hlo, hhi⟩]
    refine ⟨fun x => ?_, fun p hp => ?_, h.live, hpt⟩
    · rw [← he x]
      cases x with
      | readEnd q =>
        by_cases hq : q = fd.ptr
        · subst hq
          simp only [refs, setPipe_pipes, update_self]
          omega
        · simp [refs, hq]
      | writeEnd q =>
        by_cases hq : q = fd.ptr
        · subst hq
          simp only [refs, setPipe_pipes, update_self]
          omega
        · simp [refs, hq]
      | file a => rfl
    · by_cases hpe : p = fd.ptr
      · subst hpe
        simp
      · simp only [setPipe_pipes, update_of_ne hpe] at hp ⊢
        exact h.inactive p hp
  · refine ⟨he, inactive_setPipe h fun hp => ?_, h.live, hpt⟩
    simp [Pipe.bump_active, ha] at hp

/-- The last reference frees the object, any other only lowers the count. -/
lemma Counted.drop_file {f : VfsFile} (h : Counted o (fd :: l)) (ht : fd.type = .file)
    (hf : o.files fd.ptr = some f) (hp : o'.pipes = o.pipes)
    (hfi : o'.files = update o.files fd.ptr
      (if f.refCount ≤ 1 then none else some (f.bump (-1)))) : Counted o' l := by
  have ho : o.refs (.file fd.ptr) = f.refCount := by simp [refs, hf]
  have hpo := h.live _ f hf
  refine ⟨h.exact.drop (obj_file ht) ?_ fun y hy => ?_, ?_, fun a f' hf' => ?_,
    (forall_mem_cons.1 h.ptr).2⟩
  · rw [ho]
    simp only [refs, hfi, update_self]
    split_ifs
    · simp only [Option.elim_none]
      omega
    · rfl
  · cases y with
    | readEnd q => simp [refs, hp]
    | writeEnd q => simp [refs, hp]
    | file b =>
      have hb : b ≠ fd.ptr := fun hb => hy (by rw [hb])
      simp [refs, hfi, hb]
  · rw [hp]
    exact h.inactive
  · rw [hfi] at hf'
    by_cases ha : a = fd.ptr
    · subst ha
      rw [update_self] at hf'
      split_ifs at hf' with hle
      simp only [Option.some.injEq] at hf'
      subst hf'
      simp only [bump]
      omega
    · rw [update_of_ne ha] at hf'
      exact h.live a f' hf'

lemma VfsFile.bump_le_zero {f : VfsFile} : (f.bump (-1)).refCount ≤ 0 ↔ f.refCount ≤ 1 := by
  simp only [bump]
  omega

lemma closeFile_eq {a : ℕ} {f : VfsFile} (hf : o.files a = some f) :
    (closeFile e o a).2.pipes = o.pipes ∧ (closeFile e o a).2.files = update o.files a
      (if f.refCount ≤ 1 then none else some (f.bump (-1))) ∧
    (closeFile e o a).2.log = o.log ++ if f.refCount ≤ 1 then [.commit a, .free a] else [] := by
  unfold closeFile
  rw [hf]
  simp only [bump_le_zero]
  split_ifs <;> simp

lemma dup2File_eq {a : ℕ} {f : VfsFile} (hf : o.files a = some f) :
    (dup2File o a).pipes = o.pipes ∧ (dup2File o a).files = update o.files a
      (if f.refCount ≤ 1 then none else some (f.bump (-1))) ∧
    (dup2File o a).log = o.log ++ if f.refCount ≤ 1 then [.free a] else [] := by
  unfold dup2File
  rw [hf]
  simp only [bump_le_zero]
  split_ifs <;> simp

lemma closeFd_counted (h : Counted o (fd :: l)) : Counted (closeFd e o fd).2 l := by
  rcases ht : fd.type
  case pipe =>
    rw [closeFd, ht]
    exact dropPipe_counted h ht
  case file =>
    obtain ⟨f, hf⟩ := h.file_of_mem mem_cons_self ht
    obtain ⟨hp, hfs, -⟩ := @closeFile_eq e o fd.ptr f hf
    have heq : (closeFd e o fd).2 = (closeFile e o fd.ptr).2 := by
      simp [closeFd, ht, (h.ptr fd mem_cons_self).2 ht]
    rw [heq]
    exact h.drop_file ht hf hp hfs
  all_goals
    rw [closeFd, ht]
    exact (Counted.cons_none (by simp [obj, ht])).1 h

lemma closeFds_counted : ∀ (tb : List Fd) {o : Objects}, Counted o (tb ++ l) →
    Counted (tb.foldl (fun o fd => (closeFd e o fd).2) o) l
  | [], _, h => h
  | fd :: tb, _, h => by
    exact closeFds_counted tb (closeFd_counted h)

end Drop

section Calls

structure FdInv (s : Kernel) : Prop where
  counted : Counted s.objs s.tasks.flatten
  tables : ∀ tb ∈ s.tasks, tb.length = maxFdPerTask
  few : s.tasks.length ≤ maxTasks

variable {e : Env} {s : Kernel} {t k : ℕ} {tb : List Fd} {old new : Fd}

lemma FdInv.set_table (h : FdInv s) (ht : s.tasks[t]? = some tb) {tb' : List Fd}
    (hl : tb'.length = tb.length) {o : Objects}
    (hc : Counted o (s.tasks.set t tb').flatten) : FdInv { s.setTable t tb' with objs := o } where
  counted := hc
  tables tb'' hmem := by
    rcases mem_or_eq_of_mem_set hmem with hmem | rfl
    · exact h.tables tb'' hmem
    · rw [hl]
      exact h.tables tb (mem_of_getElem? ht)
  few := by
    simp only [Kernel.setTable, length_set]
    exact h.few

/-- A call that changes one slot is right if it is right on the rest of the bag. -/
lemma FdInv.set_slot (h : FdInv s) (ht : s.tasks[t]? = some tb) (hk : tb[k]? = some old)
    {o : Objects} (hc : Counted o (new :: slotRest s.tasks t tb k)) :
    FdInv { s.setTable t (tb.set k new) with objs := o } :=
  h.set_table ht (length_set ..) (hc.perm (flatten_set_slot ht hk new).symm)

lemma freeFd_some {lo : ℕ} (h : freeFd tb lo = some k) :
    lo ≤ k ∧ ∃ fd, tb[k]? = some fd ∧ fd.obj = none := by
  obtain ⟨hk, -, -⟩ := firstIdx_eq_some.1 h
  simp only [Bool.and_eq_true, decide_eq_true_eq, Option.map_eq_some_iff] at hk
  obtain ⟨hlo, fd, hf, ht⟩ := hk
  exact ⟨hlo, fd, hf, obj_eq_none.2 ⟨by simp [ht], by simp [ht]⟩⟩

lemma sysClose_inv (h : FdInv s) {fd : ℕ} : FdInv (sysClose e s t fd).2 := by
  unfold sysClose
  rcases ht : s.tasks[t]? with _ | tb
  · exact h
  dsimp only
  rcases hk : tb[fd]? with _ | desc
  · exact h
  refine h.set_slot ht hk ((Counted.cons_none (by rfl)).2 (closeFd_counted ?_))
  exact h.counted.perm (flatten_slot ht hk)

lemma sysDup2_cases {oldfd newfd : ℕ} : (sysDup2 s t oldfd newfd).2 = s ∨
    ∃ tb src old, s.tasks[t]? = some tb ∧ tb[oldfd]? = some src ∧ tb[newfd]? = some old ∧
      src.type ≠ .none ∧ oldfd ≠ newfd ∧ (sysDup2 s t oldfd newfd).2 =
        { s.setTable t (tb.set newfd src) with objs := dup2Take (dup2Drop s.objs old) src } := by
  unfold sysDup2
  rcases ht : s.tasks[t]? with _ | tb
  · exact .inl rfl
  dsimp only
  rcases hs : tb[oldfd]? with _ | src
  · exact .inl rfl
  rcases ho : tb[newfd]? with _ | old
  · exact .inl rfl
  dsimp only
  split_ifs with hty heq
  · exact .inl rfl
  · exact .inl rfl
  · exact .inr ⟨tb, src, old, rfl, hs, ho, hty, heq, rfl⟩

lemma dup2Drop_counted {o : Objects} {l : List Fd} (h : Counted o (old :: l)) :
    Counted (dup2Drop o old) l := by
  rcases ht : old.type
  case pipe =>
    rw [dup2Drop, ht]
    exact dropPipe_counted h ht
  case file =>
    obtain ⟨f, hf⟩ := h.file_of_mem mem_cons_self ht
    obtain ⟨hp, hfs, -⟩ := dup2File_eq hf
    have heq : dup2Drop o old = dup2File o old.ptr := by
      simp [dup2Drop, ht, (h.ptr old mem_cons_self).2 ht]
    rw [heq]
    exact h.drop_file ht hf hp hfs
  all_goals
    rw [dup2Drop, ht]
    exact (Counted.cons_none (by simp [obj, ht])).1 h

lemma dup2Take_counted {o : Objects} {l : List Fd} {src : Fd} (h : Counted o l)
    (hs : src ∈ l) : Counted (dup2Take o src) (src :: l) := by
  rcases ht : src.type
  case pipe =>
    rw [dup2Take, ht]
    exact takePipe_counted h hs ht
  case file =>
    obtain ⟨f, hf⟩ := h.file_of_mem hs ht
    have heq : dup2Take o src = o.setFile src.ptr (f.bump 1) := by
      simp [dup2Take, ht, (h.ptr src hs).2 ht, takeFile, hf]
    rw [heq]
    exact setFile_take_counted h hs ht hf
  all_goals
    rw [dup2Take, ht]
    exact (Counted.cons_none (by simp [obj, ht])).2 h

section

variable (h : FdInv s)
include h

lemma sysDup2_inv {oldfd newfd : ℕ} : FdInv (sysDup2 s t oldfd newfd).2 := by
  rcases @sysDup2_cases s t oldfd newfd with heq | ⟨tb, src, old, ht, hs, ho, -, hne, heq⟩
  · rwa [heq]
  · rw [heq]
    refine h.set_slot ht ho (dup2Take_counted (dup2Drop_counted ?_) (mem_slotRest hs hne))
    exact h.counted.perm (flatten_slot ht ho)

lemma Counted.length_lt : s.tasks.flatten.length + maxFdPerTask < 1000 := by
  have := h.few
  rw [length_flatten_of_length h.tables]
  simp only [maxTasks, maxFdPerTask] at this ⊢
  omega

lemma inherit_inv (ht : s.tasks[t]? = some tb) : (inheritFdTable s.objs tb).1 = tb ∧
      Counted (inheritFdTable s.objs tb).2 (tb ++ s.tasks.flatten) := by
  have hmem := mem_of_getElem? ht
  refine inheritFdTable_counted tb h.counted
    (fun fd hf => mem_flatten.2 ⟨tb, hmem, hf⟩) ?_
  rw [h.tables tb hmem]
  exact Counted.length_lt h

lemma FdInv.add_task (hlt : s.tasks.length < maxTasks)
    (hl : tb.length = maxFdPerTask) {o : Objects} (hc : Counted o (tb ++ s.tasks.flatten)) :
    FdInv ⟨o, s.tasks ++ [tb]⟩ where
  counted := hc.perm (by simpa using perm_append_comm)
  tables tb' hmem := by
    rcases mem_append.1 hmem with hmem | hmem
    · exact h.tables tb' hmem
    · rw [mem_singleton.1 hmem, hl]
  few := by
    simp only [length_append, length_singleton]
    omega

lemma sysFork_inv {made : Errno} : FdInv (sysFork s t made).2 := by
  unfold sysFork
  rcases ht : s.tasks[t]? with _ | tb
  · exact h
  dsimp only
  split_ifs with hslot hmade
  · exact h
  · exact h
  · obtain ⟨htb, hc⟩ := inherit_inv h ht
    rw [htb]
    refine h.add_task ?_ (h.tables tb (mem_of_getElem? ht)) hc
    simpa [checkFreeTaskSlot] using hslot

lemma reapTask_inv : FdInv (reapTask e s t) := by
  unfold reapTask
  split_ifs with h0
  · exact h
  rcases ht : s.tasks[t]? with _ | tb
  · exact h
  refine ⟨closeFds_counted tb (h.counted.perm (flatten_perm_of_getElem? ht)),
    fun tb' hmem => ?_, ?_⟩
  · exact h.tables tb' (mem_of_mem_eraseIdx hmem)
  · exact (length_eraseIdx_le ..).trans h.few

end

lemma createPipe_some {o o' : Objects} {p : ℕ} (h : createPipe o = (some p, o')) :
    1 ≤ p ∧ p ≤ maxSystemPipes ∧ (o.pipes p).active = false ∧ o' = o.setPipe p ⟨true, 1, 1⟩ := by
  unfold createPipe at h
  split at h
  · simp at h
  · rename_i i hi
    obtain ⟨ha, hlt, -⟩ := firstIdx_eq_some.1 hi
    obtain ⟨rfl, rfl⟩ := h
    have ha : (o.pipes (pipeAddr i)).active = false := by simpa using ha
    exact ⟨Nat.succ_pos i, hlt, ha, rfl⟩

lemma setPipe_counted {o : Objects} {l : List Fd} {p : ℕ} (h : Counted o l)
    (hlo : 1 ≤ p) (hhi : p ≤ maxSystemPipes) (ha : (o.pipes p).active = false) :
    Counted (o.setPipe p ⟨true, 1, 1⟩) (⟨.pipe, p, 0⟩ :: ⟨.pipe, p, 1⟩ :: l) := by
  obtain ⟨hr, hw⟩ := h.inactive p ha
  have ho : ExactRefs obj (update o.refs (.writeEnd p) 1) (⟨.pipe, p, 1⟩ :: l) :=
    h.exact.take rfl (by simp [refs, hw]) fun y hy => update_of_ne hy _ _
  refine ⟨ho.take rfl ?_ fun y hy => ?_, inactive_setPipe h (by simp), h.live, ?_⟩
  · simp [refs, hr]
  · cases y with
    | readEnd q =>
      have hq : q ≠ p := fun hq => hy (by simp [hq])
      simp [refs, hq]
    | writeEnd q => by_cases hq : q = p <;> simp [refs, hq]
    | file a => simp [refs]
  · have he : ∀ m, PtrOk ⟨.pipe, p, m⟩ := fun m => ⟨fun _ => ⟨hlo, hhi⟩, by simp⟩
    exact forall_mem_cons.2 ⟨he 0, forall_mem_cons.2 ⟨he 1, h.ptr⟩⟩

lemma destroyPipe_setPipe {o : Objects} {p : ℕ} {v : Pipe} (hlo : 1 ≤ p)
    (hhi : p ≤ maxSystemPipes) : destroyPipe (o.setPipe p v) p = o.setPipe p ⟨false, 0, 0⟩ := by
  simp [destroyPipe, hlo, hhi, setPipe]

lemma setPipe_unused_counted {o : Objects} {l : List Fd} {p : ℕ} (h : Counted o l)
    (ha : (o.pipes p).active = false) : Counted (o.setPipe p ⟨false, 0, 0⟩) l := by
  have hsame : o.pipes p = ⟨false, 0, 0⟩ := by
    obtain ⟨hr, hw⟩ := h.inactive p ha
    rcases hp : o.pipes p with ⟨a, r, w⟩
    simp_all
  have : o.setPipe p ⟨false, 0, 0⟩ = o := by
    rw [setPipe, ← hsame, update_eq_self]
  rwa [this]

lemma sysPipe_inv (h : FdInv s) {bufOk : Bool} {copied : Errno} :
    FdInv (sysPipe s t bufOk copied).2 := by
  unfold sysPipe
  rcases ht : s.tasks[t]? with _ | tb
  · exact h
  split_ifs with hb
  · exact h
  rcases hc : createPipe s.objs with ⟨_ | p, o⟩
  · exact h
  obtain ⟨hlo, hhi, ha, rfl⟩ := createPipe_some hc
  have hf : FdInv { s with objs := destroyPipe (s.objs.setPipe p ⟨true, 1, 1⟩) p } := by
    rw [destroyPipe_setPipe hlo hhi]
    exact ⟨setPipe_unused_counted h.counted ha, h.tables, h.few⟩
  dsimp only
  rcases h1 : freeFd tb 3 with _ | fd1
  · exact hf
  dsimp only
  rcases h2 : freeFd tb (fd1 + 1) with _ | fd2
  · exact hf
  -- the two slots are unused, so they leave the bag for free; the ends then come in one by one
  obtain ⟨-, old1, ho, hob⟩ := freeFd_some h1
  obtain ⟨hle, old2, hol, hoj⟩ := freeFd_some h2
  have hn := setPipe_counted
    ((Counted.cons_none hob).1 (h.counted.perm (flatten_slot ht ho))) hlo hhi ha
  have ht' : (s.tasks.set t (tb.set fd1 ⟨.pipe, p, 0⟩))[t]? = some (tb.set fd1 ⟨.pipe, p, 0⟩) := by
    exact List.getElem?_set_self (List.getElem?_eq_some_iff.1 ht).1
  have hk' : (tb.set fd1 ⟨.pipe, p, 0⟩)[fd2]? = some old2 := by
    rwa [getElem?_set_ne (by omega)]
  have hse := flatten_set_slot ht' hk' (⟨.pipe, p, 1⟩ : Fd)
  rw [set_set] at hse
  refine h.set_table ht (by simp) (.perm ?_ hse.symm)
  have hr := (flatten_slot ht' hk').symm.trans (flatten_set_slot ht ho ⟨.pipe, p, 0⟩)
  have hs := (hr.cons (⟨.pipe, p, 1⟩ : Fd)).trans (Perm.swap _ _ _)
  have := hn.perm (hs.symm.trans (Perm.swap _ _ _))
  exact (Counted.cons_none hoj).1 this

lemma setFile_new_counted {o : Objects} {l : List Fd} {a mode : ℕ} {f : VfsFile}
    (h : Counted o l) (ha : a ≠ 0) (hfr : o.files a = none) (hf : f.refCount = 1) :
    Counted (o.setFile a f) (⟨.file, a, mode⟩ :: l) := by
  obtain ⟨hs, ho⟩ := @setFile_refs o a f
  have hol : o.refs (.file a) = 0 := by simp [refs, hfr]
  refine ⟨h.exact.take (obj_file rfl) (by rw [hs, hol, hf]; rfl) ho, h.inactive,
    fun _ _ => live_setFile h (hf ▸ one_pos),
    forall_mem_cons.2 ⟨⟨by simp, fun _ => ha⟩, h.ptr⟩⟩

lemma fsOpen_refCount {fs : Fs} {name : Name} {parentId : ℕ} {f : VfsFile}
    (h : fsOpen fs name parentId = (.ok, some f)) : f.refCount = 1 := by
  unfold fsOpen at h
  split at h
  · simp at h
  · split at h
    · simp at h
    · simp only [Prod.mk.injEq, true_and, Option.some.injEq] at h
      rw [← h]

variable {target : OpenTarget} {flags addr fd size : ℕ} {data : Buf}
  {bufOk kmallocOk kreallocOk : Bool} {driver : Errno ⊕ ℕ}

lemma sysOpen_cases :
    (sysOpen s t target flags addr).2 = s ∨
    ∃ tb fd, s.tasks[t]? = some tb ∧ freeFd tb 3 = some fd ∧
      ((∃ idx, (sysOpen s t target flags addr).2 =
          { s.setTable t (tb.set fd ⟨.device, idx, 0⟩) with objs := s.objs }) ∨
        addr ≠ 0 ∧ s.objs.files addr = none ∧ ∃ f mode, f.refCount = 1 ∧
          (sysOpen s t target flags addr).2 =
            { s.setTable t (tb.set fd ⟨.file, addr, mode⟩) with
              objs := s.objs.setFile addr f }) := by
  unfold sysOpen
  rcases ht : s.tasks[t]? with _ | tb
  · exact .inl rfl
  cases target with
  | refused err => exact .inl rfl
  | device idx =>
    dsimp only
    rcases hfd : freeFd tb 3 with _ | fd
    · exact .inl rfl
    · exact .inr ⟨tb, fd, rfl, hfd, .inl ⟨idx, rfl⟩⟩
  | entry name parentId =>
    dsimp only
    rcases hfd : freeFd tb 3 with _ | fd
    · exact .inl rfl
    dsimp only
    by_cases ha : addr = 0 ∨ (s.objs.files addr).isSome
    · rw [if_pos ha]
      exact .inl rfl
    rw [if_neg ha]
    rw [not_or, Option.not_isSome_iff_eq_none] at ha
    split
    · rename_i f hf
      have ho : f.refCount = 1 := fsOpen_refCount hf
      exact .inr ⟨tb, fd, rfl, hfd, .inr ⟨ha.1, ha.2,
        { f with currentOffset := 0, dirty := _ }, _, ho, rfl⟩⟩
    · exact .inl rfl

lemma sysOpen_inv (h : FdInv s) : FdInv (sysOpen s t target flags addr).2 := by
  rcases @sysOpen_cases s t target flags addr with heq | ⟨tb, fd, ht, hfd, hr⟩
  · rwa [heq]
  obtain ⟨-, old, ho, hob⟩ := freeFd_some hfd
  have hc := (Counted.cons_none hob).1 (h.counted.perm (flatten_slot ht ho))
  rcases hr with ⟨idx, heq⟩ | ⟨ha, hfr, f, mode, hf, heq⟩
  · rw [heq]
    exact h.set_slot ht ho ((Counted.cons_none (by rfl)).2 hc)
  · rw [heq]
    exact h.set_slot ht ho (setFile_new_counted hc ha hfr hf)

lemma fsWriteBuffered_refCount (f : VfsFile) (data : Buf) (size : ℕ) (ok : Bool) :
    (fsWriteBuffered f data size ok).2.refCount = f.refCount := by
  unfold fsWriteBuffered
  dsimp only
  split_ifs <;> rfl

lemma sysWrite_cases :
    (sysWrite s t fd data size bufOk kmallocOk kreallocOk driver).2 = s ∨
    ∃ a f, s.objs.files a = some f ∧
      (sysWrite s t fd data size bufOk kmallocOk kreallocOk driver).2 =
        { s with objs := s.objs.setFile a (fsWriteBuffered f data size kreallocOk).2 } := by
  unfold sysWrite
  rcases hd : s.tasks[t]?.bind (·[fd]?) with _ | desc
  · exact .inl rfl
  dsimp only
  split_ifs
  · exact .inl rfl
  · exact .inl rfl
  · exact .inl rfl
  · exact .inl rfl
  · rcases desc.type
    case file => exact .inl rfl
    all_goals exact .inl rfl
  · rcases desc.type
    case file =>
      rcases hf : s.objs.files desc.ptr with _ | f
      · exact .inl rfl
      · exact .inr ⟨desc.ptr, f, hf, rfl⟩
    all_goals exact .inl rfl

lemma sysWrite_inv (h : FdInv s) :
    FdInv (sysWrite s t fd data size bufOk kmallocOk kreallocOk driver).2 := by
  rcases @sysWrite_cases s t fd size data bufOk kmallocOk kreallocOk driver with
    heq | ⟨a, f, hf, heq⟩
  · rwa [heq]
  rw [heq]
  have hsame := fsWriteBuffered_refCount f data size kreallocOk
  obtain ⟨hs, ho⟩ := @setFile_refs s.objs a (fsWriteBuffered f data size kreallocOk).2
  refine ⟨⟨fun x => ?_, h.counted.inactive, fun _ _ => live_setFile h.counted ?_, h.counted.ptr⟩,
    h.tables, h.few⟩
  · rw [← h.counted.exact x]
    by_cases hx : x = .file a
    · rw [hx, hs, hsame]
      simp [refs, hf]
    · exact ho x hx
  · rw [hsame]
    exact h.counted.live a f hf

end Calls

end EsdumanOS
