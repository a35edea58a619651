import EsdumanOS.OpenFile
import EsdumanOS.Lib.Refs

/-!
# File descriptors

The descriptor tables of the live tasks, the pipes of `pipe_pool` and the `vfs_file_t` blocks they
point to, and the calls that make, copy or drop a descriptor. `log` records when a file is committed
and freed.
-/

namespace EsdumanOS

open Lib Function

inductive FdType
  | none | console | file | pipe | device
  deriving DecidableEq, Repr

/-- `file_descriptor_t`. The pointer is an address, or the index of a device. -/
structure Fd where
  type : FdType
  ptr : ℕ
  mode : ℕ
  deriving DecidableEq, Repr

def Fd.unused : Fd := ⟨.none, 0, 0⟩

def maxFdPerTask : ℕ := 16
def maxSystemPipes : ℕ := 16

/-- `pipe_t`, as far as its references go, with its slot of `pipe_active`. -/
structure Pipe where
  active : Bool
  readRefs : ℤ
  writeRefs : ℤ
  deriving DecidableEq, Repr

inductive FileEvent
  | commit (addr : ℕ)
  | free (addr : ℕ)
  deriving DecidableEq, Repr

/-- The objects descriptors point to, by address, and the volume behind the files. -/
structure Objects where
  pipes : ℕ → Pipe
  files : ℕ → Option VfsFile
  fs : Fs
  log : List FileEvent

/-- The objects and the descriptor tables of the tasks in their order, the idle task first. -/
structure Kernel where
  objs : Objects
  tasks : List (List Fd)

/-- Where slot `i` of `pipe_pool` lies. Address 0 is the null pointer. -/
def pipeAddr (i : ℕ) : ℕ := i + 1

@[simps -fullyApplied pipes files log]
def Objects.setPipe (o : Objects) (p : ℕ) (v : Pipe) : Objects :=
  { o with pipes := update o.pipes p v }

def createPipe (o : Objects) : Option ℕ × Objects :=
  match firstIdx (fun i => !(o.pipes (pipeAddr i)).active) maxSystemPipes with
  | none => (none, o)
  | some i => (some (pipeAddr i), o.setPipe (pipeAddr i) ⟨true, 1, 1⟩)

def destroyPipe (o : Objects) (p : ℕ) : Objects :=
  if 1 ≤ p ∧ p ≤ maxSystemPipes then o.setPipe p ⟨false, 0, 0⟩ else o

/-- The pipe with `d` added to the count of the end the descriptor is. -/
def Pipe.bump (p : Pipe) (mode : ℕ) (d : ℤ) : Pipe :=
  if mode = 1 then { p with writeRefs := p.writeRefs + d }
  else { p with readRefs := p.readRefs + d }

/-- A pipe end goes away: the code that `sys_dup2`, `sys_close` and `reap_task` share. -/
def dropPipe (o : Objects) (fd : Fd) : Objects :=
  if fd.ptr = 0 then o
  else
    let p := (o.pipes fd.ptr).bump fd.mode (-1)
    let o := o.setPipe fd.ptr p
    if p.readRefs ≤ 0 ∧ p.writeRefs ≤ 0 then destroyPipe o fd.ptr else o

def takePipe (o : Objects) (fd : Fd) : Objects :=
  if fd.ptr = 0 then o else o.setPipe fd.ptr ((o.pipes fd.ptr).bump fd.mode 1)

@[simps -fullyApplied pipes files log]
def Objects.setFile (o : Objects) (a : ℕ) (f : VfsFile) : Objects :=
  { o with files := update o.files a (some f) }

/-- `kfree` of a file. -/
@[simps -fullyApplied pipes files log]
def Objects.freeFile (o : Objects) (a : ℕ) : Objects :=
  { o with files := update o.files a none, log := o.log ++ [.free a] }

/-- `fs_commit_writes` on the file at `a`. -/
def Objects.commitFile (e : Env) (o : Objects) (a : ℕ) (f : VfsFile) : Errno × Objects :=
  let r := fsCommitWrites e o.fs f
  (r.1, { o with
    files := update o.files a (some r.2.2), fs := r.2.1, log := o.log ++ [.commit a] })

@[simp] lemma Objects.commitFile_pipes (e : Env) (o : Objects) (a : ℕ) (f : VfsFile) :
    (o.commitFile e a f).2.pipes = o.pipes := rfl
@[simp] lemma Objects.commitFile_files (e : Env) (o : Objects) (a : ℕ) (f : VfsFile) :
    (o.commitFile e a f).2.files =
      update o.files a (some (fsCommitWrites e o.fs f).2.2) := rfl
@[simp] lemma Objects.commitFile_log (e : Env) (o : Objects) (a : ℕ) (f : VfsFile) :
    (o.commitFile e a f).2.log = o.log ++ [.commit a] := rfl

def VfsFile.bump (f : VfsFile) (d : ℤ) : VfsFile :=
  { f with refCount := f.refCount + d }

/-- A file descriptor goes away in `sys_close` or `reap_task`: the last one commits. -/
def closeFile (e : Env) (o : Objects) (a : ℕ) : Errno × Objects :=
  match o.files a with
  | none => (.ok, o)
  | some f =>
    let f := f.bump (-1)
    if f.refCount ≤ 0 then
      let r := (o.setFile a f).commitFile e a f
      (r.1, r.2.freeFile a)
    else (.ok, o.setFile a f)

/-- A file descriptor is overwritten in `sys_dup2`: the last one frees. -/
def dup2File (o : Objects) (a : ℕ) : Objects :=
  match o.files a with
  | none => o
  | some f =>
    let f := f.bump (-1)
    if f.refCount ≤ 0 then (o.setFile a f).freeFile a else o.setFile a f

/-- A file descriptor is copied in `sys_dup2`. -/
def takeFile (o : Objects) (a : ℕ) : Objects :=
  match o.files a with
  | none => o
  | some f => o.setFile a (f.bump 1)

def Kernel.setTable (s : Kernel) (t : ℕ) (tb : List Fd) : Kernel :=
  { s with tasks := s.tasks.set t tb }

/-- The first unused descriptor from `lo` on. -/
def freeFd (tb : List Fd) (lo : ℕ) : Option ℕ :=
  firstIdx (fun i => decide (lo ≤ i) && decide (tb[i]?.map Fd.type = some .none)) tb.length

/-- `sys_pipe`; `bufOk` and `copied` are the checks on the caller's buffer. -/
def sysPipe (s : Kernel) (t : ℕ) (bufOk : Bool) (copied : Errno) : Errno × Kernel :=
  match s.tasks[t]? with
  | none => (.fault, s)
  | some tb =>
    if !bufOk then (.fault, s)
    else
      match createPipe s.objs with
      | (none, _) => (.nomem, s)
      | (some p, o) =>
        match freeFd tb 3 with
        | none => (.mfile, { s with objs := destroyPipe o p })
        | some fd1 =>
          match freeFd tb (fd1 + 1) with
          | none => (.mfile, { s with objs := destroyPipe o p })
          | some fd2 =>
            (copied, { s.setTable t ((tb.set fd1 ⟨.pipe, p, 0⟩).set fd2 ⟨.pipe, p, 1⟩) with
              objs := o })

/-- Where the path of `sys_open` leads: an error, a device, or a name in a directory. -/
inductive OpenTarget
  | refused (err : Errno)
  | device (idx : ℕ)
  | entry (name : Name) (parentId : ℕ)

/-- `sys_open`. `addr` is what `kmalloc` returns: 0, or a block that is not in use. -/
def sysOpen (s : Kernel) (t : ℕ) (target : OpenTarget) (flags addr : ℕ) : (Errno ⊕ ℕ) × Kernel :=
  match s.tasks[t]?, target with
  | none, _ => (.inl .fault, s)
  | some _, .refused err => (.inl err, s)
  | some tb, .device idx =>
    match freeFd tb 3 with
    | none => (.inl .mfile, s)
    | some fd => (.inr fd, s.setTable t (tb.set fd ⟨.device, idx, 0⟩))
  | some tb, .entry name parentId =>
    let mode := if flags = 1 then 1 else 0
    match freeFd tb 3 with
    | none => (.inl .mfile, s)
    | some fd =>
      if addr = 0 ∨ (s.objs.files addr).isSome then (.inl .nomem, s)
      else
        match fsOpen s.objs.fs name parentId with
        | (.ok, some f) =>
          let f := { f with currentOffset := 0, dirty := if mode = 1 then true else f.dirty }
          (.inr fd, { s.setTable t (tb.set fd ⟨.file, addr, mode⟩) with
            objs := s.objs.setFile addr f })
        | _ => (.inl .noent, s)

/-- `sys_write`. Only a regular file keeps the data here; `driver` is what the others answer. -/
def sysWrite (s : Kernel) (t fd : ℕ) (data : Buf) (size : ℕ) (bufOk kmallocOk kreallocOk : Bool)
    (driver : Errno ⊕ ℕ) : (Errno ⊕ ℕ) × Kernel :=
  match s.tasks[t]?.bind (·[fd]?) with
  | none => (.inl .inval, s)
  | some desc =>
    if 2 ^ 31 ≤ size then (.inl .inval, s)
    else if size = 0 then (.inr 0, s)
    else if !bufOk then (.inl .fault, s)
    else if !kmallocOk then (.inl .nomem, s)
    else
      match desc.type with
      | .none => (.inl .badf, s)
      | .file =>
        if desc.mode ≠ 1 ∨ desc.ptr = 0 then (.inl .badf, s)
        else
          match s.objs.files desc.ptr with
          | none => (.inl .badf, s)
          | some f =>
            let r := fsWriteBuffered f data size kreallocOk
            (r.1, { s with objs := s.objs.setFile desc.ptr r.2 })
      | _ => (driver, s)

/-- `sys_dup2` releases what `newfd` held, without a commit. -/
def dup2Drop (o : Objects) (old : Fd) : Objects :=
  match old.type with
  | .pipe => dropPipe o old
  | .file => if old.ptr = 0 then o else dup2File o old.ptr
  | _ => o

/-- `sys_dup2` takes a reference for the copy. -/
def dup2Take (o : Objects) (src : Fd) : Objects :=
  match src.type with
  | .pipe => takePipe o src
  | .file => if src.ptr = 0 then o else takeFile o src.ptr
  | _ => o

def sysDup2 (s : Kernel) (t oldfd newfd : ℕ) : (Errno ⊕ ℕ) × Kernel :=
  match s.tasks[t]? with
  | none => (.inl .badf, s)
  | some tb =>
    match tb[oldfd]?, tb[newfd]? with
    | some src, some old =>
      if src.type = .none then (.inl .badf, s)
      else if oldfd = newfd then (.inr newfd, s)
      else
        (.inr newfd, { s.setTable t (tb.set newfd src) with
          objs := dup2Take (dup2Drop s.objs old) src })
    | _, _ => (.inl .badf, s)

/-- A descriptor goes away in `sys_close` or `reap_task`. -/
def closeFd (e : Env) (o : Objects) (fd : Fd) : Errno × Objects :=
  match fd.type with
  | .pipe => (.ok, dropPipe o fd)
  | .file => if fd.ptr = 0 then (.ok, o) else closeFile e o fd.ptr
  | _ => (.ok, o)

def sysClose (e : Env) (s : Kernel) (t fd : ℕ) : Errno × Kernel :=
  match s.tasks[t]? with
  | none => (.badf, s)
  | some tb =>
    match tb[fd]? with
    | none => (.badf, s)
    | some desc =>
      let r := closeFd e s.objs desc
      (r.1, { s.setTable t (tb.set fd .unused) with objs := r.2 })

/-- One round of `inherit_fd_table`. A file whose count is out of range is not inherited. -/
def inheritFd (o : Objects) (fd : Fd) : Fd × Objects :=
  match fd.type with
  | .pipe => (fd, takePipe o fd)
  | .file =>
    if fd.ptr = 0 then (fd, o)
    else
      match o.files fd.ptr with
      | none => ({ fd with type := .none, ptr := 0 }, o)
      | some f =>
        if 0 ≤ f.refCount ∧ f.refCount < 1000 then (fd, o.setFile fd.ptr (f.bump 1))
        else ({ fd with type := .none, ptr := 0 }, o)
  | _ => (fd, o)

/-- `inherit_fd_table`, into a child's table of the same size. -/
def inheritFdTable : Objects → List Fd → List Fd × Objects
  | o, [] => ([], o)
  | o, fd :: tb =>
    let r := inheritFd o fd
    let rs := inheritFdTable r.2 tb
    (r.1 :: rs.1, rs.2)

def checkFreeTaskSlot (s : Kernel) : Bool :=
  decide (s.tasks.length < maxTasks)

/-- `sys_fork`; `made` is the outcome of the copy and of `create_process`. -/
def sysFork (s : Kernel) (t : ℕ) (made : Errno) : Errno × Kernel :=
  match s.tasks[t]? with
  | none => (.fault, s)
  | some tb =>
    if !checkFreeTaskSlot s then (.again, s)
    else if made ≠ .ok then (made, s)
    else
      let r := inheritFdTable s.objs tb
      (.ok, { objs := r.2, tasks := s.tasks ++ [r.1] })

/-- Descriptors 0, 1 and 2 are made the console when descriptor 0 is unused. -/
def standardFds : List Fd → List Fd
  | fd0 :: fd1 :: fd2 :: tb =>
    if fd0.type = .none then
      { fd0 with type := .console } :: { fd1 with type := .console } ::
        { fd2 with type := .console } :: tb
    else fd0 :: fd1 :: fd2 :: tb
  | tb => tb

/-- `load_and_exec_elf`; `loaded` is the outcome of the image and of `create_process`. -/
def loadAndExecElf (e : Env) (s : Kernel) (t : ℕ) (loaded : Errno) : Errno × Kernel :=
  match s.tasks[t]? with
  | none => (.fault, s)
  | some tb =>
    if .lockdown ≤ e.secLevel then (.acces, s)
    else if !checkFreeTaskSlot s then (.again, s)
    else if loaded ≠ .ok then (loaded, s)
    else
      let r := inheritFdTable s.objs tb
      (.ok, { objs := r.2, tasks := s.tasks ++ [standardFds r.1] })

/-- `reap_task`, for a task that exits or is killed. The idle task is not reapable. -/
def reapTask (e : Env) (s : Kernel) (t : ℕ) : Kernel :=
  if t = 0 then s
  else
    match s.tasks[t]? with
    | none => s
    | some tb =>
      { objs := tb.foldl (fun o fd => (closeFd e o fd).2) s.objs, tasks := s.tasks.eraseIdx t }

/-- A call by task `t` of the list. -/
inductive FdOp
  | pipe (t : ℕ) (bufOk : Bool) (copied : Errno)
  | openFile (t : ℕ) (target : OpenTarget) (flags addr : ℕ)
  | write (t fd : ℕ) (data : Buf) (size : ℕ) (bufOk kmallocOk kreallocOk : Bool)
      (driver : Errno ⊕ ℕ)
  | dup2 (t oldfd newfd : ℕ)
  | close (t fd : ℕ)
  | fork (t : ℕ) (made : Errno)
  | exec (t : ℕ) (loaded : Errno)
  | exit (t : ℕ)

def fdStep (s : Kernel) : Env × FdOp → Kernel
  | (_, .pipe t bufOk copied) => (sysPipe s t bufOk copied).2
  | (_, .openFile t target flags addr) => (sysOpen s t target flags addr).2
  | (_, .write t fd data size bufOk kmallocOk kreallocOk driver) =>
    (sysWrite s t fd data size bufOk kmallocOk kreallocOk driver).2
  | (_, .dup2 t oldfd newfd) => (sysDup2 s t oldfd newfd).2
  | (e, .close t fd) => (sysClose e s t fd).2
  | (_, .fork t made) => (sysFork s t made).2
  | (e, .exec t loaded) => (loadAndExecElf e s t loaded).2
  | (e, .exit t) => reapTask e s t

def fdRun (s : Kernel) (calls : List (Env × FdOp)) : Kernel :=
  calls.foldl fdStep s

def bootKernel (fs : Fs) : Kernel where
  objs := ⟨fun _ => ⟨false, 0, 0⟩, fun _ => none, fs, []⟩
  tasks := [List.replicate maxFdPerTask .unused]

end EsdumanOS
