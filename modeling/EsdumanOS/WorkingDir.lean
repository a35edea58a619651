import EsdumanOS.Directory

/-!
# Working directories

`cwd_id` of every task over the directory table, and the calls that set it or replace the table.
Every directory carries a serial number of its own, so that a slot used again can be told from the
directory before; the root has number 0.
-/

namespace EsdumanOS

open Lib

/-- What `init_fs` leaves in memory: a table that is mounted has passed the validator. -/
structure InitTable where
  dirs : Dirs
  accepted : dirs.mounted = true → dirs.validate = true

/-- `cwd_id`, and the serial number of the directory the task last changed into or inherited. -/
structure CwdTask where
  cwdId : ℕ
  home : ℕ
  deriving DecidableEq

structure Cwds where
  dirs : Dirs
  root : ℕ
  tasks : List CwdTask
  serial : ℕ → ℕ
  next : ℕ

section Steps

def Cwds.boot (root : ℕ) (t : InitTable) : Cwds :=
  ⟨t.dirs, root, [⟨0, 0⟩], fun i => i + 1, t.dirs.maxEntries + 1⟩

variable (s : Cwds)

def Cwds.serialOf (id : ℕ) : ℕ := if id = 0 then 0 else s.serial id

/-- `create_process`, called by the task at position `i`. -/
def createProcess (i : ℕ) : Cwds :=
  match s.tasks[i]? with
  | none => s
  | some t => { s with tasks := s.tasks ++ [⟨t.cwdId, t.home⟩] }

def sysChdir (uid gid i : ℕ) (path : List Char) : Cwds :=
  match s.tasks[i]? with
  | none => s
  | some t =>
    match s.dirs.resolveDirFromCwd uid gid t.cwdId path with
    | .error _ => s
    | .ok target => { s with tasks := s.tasks.set i ⟨target, s.serialOf target⟩ }

/-- An operation of the file system. An entry that comes into use is a new one. -/
def Cwds.file (e : DirEnv) (op : FsOp) : Cwds :=
  let dirs := (s.dirs.run e op).2
  { s with
    dirs := dirs
    serial := fun i => if (s.dirs.table i).isUsed = 0 ∧ (dirs.table i).isUsed ≠ 0 then s.next + i
      else s.serial i
    next := s.next + s.dirs.maxEntries }

/-- The table is replaced. An entry read back unchanged from the same device is the directory it
was. -/
def Cwds.load (root : ℕ) (t : InitTable) : Cwds :=
  { s with
    dirs := t.dirs
    root := root
    serial := fun i =>
      if root = s.root ∧ i < s.dirs.maxEntries ∧ t.dirs.table i = s.dirs.table i then s.serial i
      else s.next + i
    next := s.next + t.dirs.maxEntries }

/-- What `sys_mount` finds: the device, whether a file is open, the flush, which devices can be the
root, and what `init_fs` makes of them. -/
structure MountCall where
  target : Option ℕ
  fileOpen : Bool
  flush : Errno
  usable : ℕ → Bool
  first : InitTable
  back : InitTable

def setRoot (usable : ℕ → Bool) (root dev : ℕ) : ℕ :=
  if dev = 0 then 0 else if usable dev then dev else root

def Cwds.mount (uid : ℕ) (c : MountCall) : Cwds :=
  if uid ≠ 0 then s
  else
    match c.target with
    | none => s
    | some dev =>
      if dev = s.root then s
      else if c.fileOpen then s
      else if c.flush ≠ .ok then s
      else
        let root := setRoot c.usable s.root dev
        if c.first.dirs.mounted then s.load root c.first
        else s.load (setRoot c.usable root s.root) c.back

def Cwds.umount (uid : ℕ) (fileOpen : Bool) (flush : Errno) : Cwds :=
  if uid ≠ 0 then s
  else if s.root = 0 then s
  else if fileOpen then s
  else if flush ≠ .ok then s
  else s.load 0 ⟨.none, by simp [Dirs.none]⟩

end Steps

inductive CwdCall
  | fork
  | exec
  | exit
  | chdir (path : List Char)
  | file (e : DirEnv) (op : FsOp)
  | mount (c : MountCall)
  | umount (fileOpen : Bool) (flush : Errno)

/-- A call of the task at position `task` of the list. -/
structure CwdStep where
  task : ℕ
  uid : ℕ
  gid : ℕ
  call : CwdCall

/-- `fork` and `exec` both start a task with `create_process`. -/
def cwdStep (s : Cwds) (a : CwdStep) : Cwds :=
  match a.call with
  | .fork => createProcess s a.task
  | .exec => createProcess s a.task
  | .exit => { s with tasks := s.tasks.eraseIdx a.task }
  | .chdir path => sysChdir s a.uid a.gid a.task path
  | .file e op => s.file e op
  | .mount c => s.mount a.uid c
  | .umount fileOpen flush => s.umount a.uid fileOpen flush

def cwdRun (s : Cwds) (calls : List CwdStep) : Cwds :=
  calls.foldl cwdStep s

/-- Every working directory is the root, or a mounted directory and the one last changed into or
inherited. -/
def CwdsValid (s : Cwds) : Prop :=
  ∀ t ∈ s.tasks, (t.cwdId = 0 ∧ t.home = 0) ∨
    (s.dirs.mounted = true ∧ ∃ i < s.dirs.maxEntries, (s.dirs.table i).isUsed ≠ 0 ∧
      (s.dirs.table i).fileType = ftDir ∧ (s.dirs.table i).entryId = t.cwdId ∧
      s.serial i = t.home)

/-- No working directory is deleted, a `sys_mount` or `sys_umount` that passes its checks finds
every task in the root directory, and nobody changes into an unmounted table. -/
def CwdsSpared (s : Cwds) (a : CwdStep) : Prop :=
  match a.call with
  | .chdir path => s.dirs.mounted = true ∨ ∀ t ∈ s.tasks[a.task]?,
      ∀ target, s.dirs.resolveDirFromCwd a.uid a.gid t.cwdId path = .ok target → target = 0
  | .file e op => ∀ t ∈ s.tasks, t.cwdId ≠ 0 → s.dirs.empties e op ≠ some t.cwdId
  | .mount c => a.uid = 0 → c.target ≠ none → c.target ≠ some s.root → c.fileOpen = false →
      c.flush = .ok → ∀ t ∈ s.tasks, t.cwdId = 0
  | .umount fileOpen flush => a.uid = 0 → s.root ≠ 0 → fileOpen = false → flush = .ok →
      ∀ t ∈ s.tasks, t.cwdId = 0
  | _ => True

end EsdumanOS
