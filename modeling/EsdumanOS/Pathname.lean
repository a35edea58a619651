import EsdumanOS.DirTree

/-!
# The path of a working directory

The system calls that take a path to a directory, `sys_mkdir`, `sys_mv_file` and `sys_chdir`, and
`sys_getcwd`, which writes down the path of the working directory.
-/

namespace EsdumanOS

open Lib

def maxPath : ℕ := 256
def getcwdMaxDepth : ℕ := 16
def getcwdMaxPath : ℕ := 512

/-- `copy_user_string`: the string behind a user pointer, if it can be read and fits. -/
def copyUserString (arg : Option (List Char)) : Option (List Char) :=
  arg.filter fun s => decide (s.length < maxPath)

def fsModeSticky : ℕ := 0o1000

def fsStickyAllowsRemoval (dirMode dirOwner entryOwner uid : ℕ) : Bool :=
  if dirMode &&& fsModeSticky = 0 then true
  else if uid = 0 then true
  else if uid = entryOwner then true
  else decide (uid = dirOwner)

def Dirs.checkRemovalAccess (t : Dirs) (uid parentId : ℕ) (name : Name) : Bool :=
  if uid = 0 then true
  else
    match t.entryIdx name parentId with
    | Option.none => true
    | some idx =>
      if parentId = 0 then fsStickyAllowsRemoval 0o755 0 (t.table idx).ownerUid uid
      else
        match t.slotOf parentId with
        | Option.none => false
        | some dirIdx => fsStickyAllowsRemoval (t.table dirIdx).mode (t.table dirIdx).ownerUid
            (t.table idx).ownerUid uid

namespace Dirs

variable (t : Dirs)

section Calls

variable (e : DirEnv) (cwd : ℕ)

def sysMkdir (name : Option (List Char)) : Errno × Dirs :=
  match copyUserString name with
  | Option.none => (.fault, t)
  | some path =>
    match t.resolvePath path cwd with
    | .error err => (err, t)
    | .ok (parentId, basename) =>
      if basename = [] then (.noent, t)
      else if !t.checkVfsAccess e.uid e.gid parentId true then (.acces, t)
      else t.mkdir e basename parentId

/-- `sys_mv_file`, on two strings that have been copied. -/
def moveFile (oldName newName : List Char) : Errno × Dirs :=
  match t.resolvePath oldName cwd, t.resolvePath newName cwd with
  | .error err, _ => (err, t)
  | .ok _, .error err => (err, t)
  | .ok (oldParent, oldBase), .ok (newParent, newBase) =>
    if oldBase = [] ∨ newBase = [] then (.noent, t)
    else if oldParent ≠ newParent then (.inval, t)
    else if !t.checkVfsAccess e.uid e.gid oldParent true then (.acces, t)
    else if !t.checkRemovalAccess e.uid oldParent oldBase then (.acces, t)
    else t.rename e oldBase newBase oldParent

def sysMvFile (oldName newName : Option (List Char)) : Errno × Dirs :=
  match copyUserString oldName, copyUserString newName with
  | some oldName, some newName => t.moveFile e cwd oldName newName
  | _, _ => (.fault, t)

end Calls

/-- The first loop of `sys_getcwd`: the slots from the working directory up to the root. -/
def climb : ℕ → ℕ → Except Errno (List ℕ)
  | depth, id =>
    if id = 0 then .ok []
    else
      match depth with
      | 0 => .error .nametoolong
      | depth + 1 =>
        match t.find fun d => d.entryId == id && d.fileType == ftDir && d.isUsed == 1 with
        | Option.none => .error .noent
        | some idx =>
          match climb depth (t.table idx).parentId with
          | .error err => .error err
          | .ok chain => .ok (idx :: chain)

def putChar (path : List Char) (c : Char) : Except Errno (List Char) :=
  if getcwdMaxPath ≤ path.length + 1 then .error .nametoolong else .ok (path ++ [c])

def putName : List Char → Name → Except Errno (List Char)
  | path, [] => .ok path
  | path, c :: name =>
    match putChar path c with
    | .error err => .error err
    | .ok path => putName path name

def putSlash (path : List Char) : Except Errno (List Char) :=
  if 1 < path.length then putChar path '/' else .ok path

/-- The second loop of `sys_getcwd`, over the slots from the root down. -/
def render : List Char → List ℕ → Except Errno (List Char)
  | path, [] => .ok path
  | path, idx :: chain =>
    match putSlash path with
    | .error err => .error err
    | .ok path =>
      match putName path (t.table idx).filename with
      | .error err => .error err
      | .ok path => render path chain

/-- `sys_getcwd`: the string it copies out to `userSize` bytes, if `copyOk`. -/
def sysGetcwd (cwd userSize : ℕ) (copyOk : Bool) : Except Errno (List Char) :=
  if userSize = 0 then .error .inval
  else
    match t.climb getcwdMaxDepth cwd with
    | .error err => .error err
    | .ok chain =>
      match t.render ['/'] chain.reverse with
      | .error err => .error err
      | .ok path =>
        if userSize < path.length + 1 then .error .nametoolong
        else if !copyOk then .error .fault
        else .ok path

/-- No directory from `id` up to the root is called `.` or `..`. -/
def PlainWay (id : ℕ) : Prop :=
  ∀ l, t.ParentChain id l → ∀ i ∈ l, (t.table i).filename ≠ ['.'] ∧
    (t.table i).filename ≠ ['.', '.']

end Dirs

structure Sessions where
  dirs : Dirs
  cwd : ℕ → ℕ

def Sessions.start (t : Dirs) : Sessions := ⟨t, fun _ => 0⟩

/-- A path argument is `none` if the pointer is bad. -/
inductive PathCall
  | mkdir (name : Option (List Char))
  | rename (oldName newName : Option (List Char))
  | chdir (path : Option (List Char))

/-- A call of a task, which runs as the user of the environment. -/
structure PathStep where
  task : ℕ
  env : DirEnv
  call : PathCall

def Sessions.chdir (s : Sessions) (uid gid task : ℕ) (arg : Option (List Char)) : Sessions :=
  match copyUserString arg with
  | none => s
  | some path =>
    match s.dirs.resolveDirFromCwd uid gid (s.cwd task) path with
    | .error _ => s
    | .ok target => { s with cwd := Function.update s.cwd task target }

def Sessions.step (s : Sessions) (a : PathStep) : Sessions :=
  match a.call with
  | .mkdir name => { s with dirs := (s.dirs.sysMkdir a.env (s.cwd a.task) name).2 }
  | .rename oldName newName =>
    { s with dirs := (s.dirs.sysMvFile a.env (s.cwd a.task) oldName newName).2 }
  | .chdir path => s.chdir a.env.uid a.env.gid a.task path

def Sessions.run (s : Sessions) (calls : List PathStep) : Sessions := calls.foldl Sessions.step s

/-- A path leads root to a directory from wherever it is. It may be longer than the 256 bytes that a
system call copies. -/
def Dirs.LeadsTo (t : Dirs) (path : List Char) (id : ℕ) : Prop :=
  ∀ cwd gid, t.resolveDirFromCwd 0 gid cwd path = .ok id

end EsdumanOS
