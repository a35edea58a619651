import EsdumanOS.Mount
import EsdumanOS.Wellformed

/-!
# The directory table alone

What the operations of `vfs.c` do to `dir_table`, for a table of any disk that `init_fs` accepts;
where a file's data goes is left open. Over the table, path resolution, the permission walk and the
validator.
-/

namespace EsdumanOS

open Lib

/-- `dir_table`, `fs_max_entries`, `fs_total_clusters` and `fs_mounted`. -/
structure Dirs where
  mounted : Bool
  maxEntries : ℕ
  totalClusters : ℕ
  table : ℕ → DirEntry

/-- No file system: `fs_tables_free` has run. -/
def Dirs.none : Dirs := ⟨false, 0, 0, fun _ => .zero⟩

def Fs.dirs (s : Fs) : Dirs := ⟨s.mounted, s.geo.maxEntries, s.geo.totalClusters, s.dirTable⟩

/-- What a call reads besides the table. `data` is the start cluster and the stored size of a new
file. -/
structure DirEnv extends Env where
  data : Option (ℕ × ℕ)

namespace Dirs

variable (t : Dirs)

/-- Slot `i` holds an entry. -/
def Used (i : ℕ) : Prop := i < t.maxEntries ∧ (t.table i).isUsed ≠ 0

def find (p : DirEntry → Bool) : Option ℕ := firstIdx (fun i => p (t.table i)) t.maxEntries

def findLast (p : DirEntry → Bool) : Option ℕ := lastIdx (fun i => p (t.table i)) t.maxEntries

def set (i : ℕ) (d : DirEntry) : Dirs := { t with table := Function.update t.table i d }

def dirExists (parentId : ℕ) : Bool :=
  if parentId = 0 then true
  else (t.find fun d => d.isUsed != 0 && d.fileType == ftDir && d.entryId == parentId).isSome

def freeSlot : Option ℕ :=
  firstIdx (fun i => decide (0 < i) && (t.table i).isUsed == 0) t.maxEntries

def entryIdx (name : Name) (parentId : ℕ) : Option ℕ := t.find fun d => d.named parentId name

/-- `fs_slot_of` and `slot_of_entry`. -/
def slotOf (entryId : ℕ) : Option ℕ := t.find fun d => d.isUsed != 0 && d.entryId == entryId

section Operations

variable (e : DirEnv)

def createFileRaw (name : Name) (parentId : ℕ) : Errno × Dirs :=
  if !t.mounted then (.nodev, t)
  else if maxFilename ≤ name.length then (.inval, t)
  else if !t.dirExists parentId then (.noent, t)
  else if (t.findLast fun d => d.named parentId name).isSome then (.exist, t)
  else
    match t.freeSlot with
    | Option.none => (.nfile, t)
    | some k =>
      match e.data with
      | Option.none => (.nospc, t)
      | some (cluster, size) => (.ok, t.set k (newFileEntry e.toEnv k name cluster size parentId))

/-- `fs_create_file`, with `fs_create_encrypted` where the level asks for it. -/
def createFile (name : Name) (parentId : ℕ) : Errno × Dirs :=
  if .immutable ≤ e.secLevel then (.rofs, t)
  else if .cryptoEnforced ≤ e.secLevel then
    if !e.keyUsable then (.acces, t)
    else if !e.kmallocOk then (.nomem, t)
    else if e.iv.isNone then (.io, t)
    else t.createFileRaw e name parentId
  else t.createFileRaw e name parentId

/-- Some entry in use (`is_used == 1`) lies in the directory. -/
def hasChild (id : ℕ) : Bool := (t.find fun d => d.isUsed == 1 && d.parentId == id).isSome

/-- The slot `fs_delete` gives up. -/
def deletes (name : Name) (parentId : ℕ) : Option ℕ :=
  if !t.mounted ∨ .immutable ≤ e.secLevel then Option.none
  else (t.find fun d => d.named1 parentId name).filter fun i =>
    !(decide ((t.table i).fileType = ftDir) && t.hasChild (t.table i).entryId)

def delete (name : Name) (parentId : ℕ) : Errno × Dirs :=
  if !t.mounted then (.nodev, t)
  else if .immutable ≤ e.secLevel then (.rofs, t)
  else
    match t.find fun d => d.named1 parentId name with
    | Option.none => (.noent, t)
    | some i =>
      if (t.table i).fileType = ftDir ∧ t.hasChild (t.table i).entryId then (.notempty, t)
      else (.ok, t.set i (t.table i).freed)

def rename (oldName newName : Name) (parentId : ℕ) : Errno × Dirs :=
  if !t.mounted then (.nodev, t)
  else if maxFilename ≤ newName.length then (.inval, t)
  else if .immutable ≤ e.secLevel then (.rofs, t)
  else if (t.find fun d => d.named1 parentId newName).isSome then (.exist, t)
  else
    match t.find fun d => d.named1 parentId oldName with
    | Option.none => (.noent, t)
    | some i => (.ok, t.set i { t.table i with filename := newName, ctime := e.now })

/-- The exchange of data in `fs_atomic_update`. -/
def swap (orig tmp : ℕ) : Dirs :=
  let o := t.table orig
  let t := t.set orig { o with
    startCluster := (t.table tmp).startCluster
    fileSize := (t.table tmp).fileSize
    mtime := e.now }
  t.set tmp { t.table tmp with startCluster := o.startCluster, fileSize := o.fileSize }

/-- The second half of `fs_atomic_update`, with the new data under the temporary name. -/
def finishUpdate (name : Name) (parentId : ℕ) : Errno × Dirs :=
  match t.findLast fun d => d.named parentId name,
      t.findLast fun d => d.named parentId (tmpName name) with
  | some orig, some tmp => (.ok, ((t.swap e orig tmp).delete e (tmpName name) parentId).2)
  | _, _ => (.noent, (t.delete e (tmpName name) parentId).2)

def atomicUpdate (name : Name) (parentId : ℕ) : Errno × Dirs :=
  if !t.mounted then (.nodev, t)
  else if .immutable ≤ e.secLevel then (.rofs, t)
  else if (t.entryIdx name parentId).isNone then t.createFile e name parentId
  else
    let r := (t.delete e (tmpName name) parentId).2.createFile e (tmpName name) parentId
    if r.1 ≠ .ok then r else r.2.finishUpdate e name parentId

/-- The common body of `fs_chmod` and `fs_chown`. -/
def changeEntry (entryId : ℕ) (change : DirEntry → DirEntry) : Errno × Dirs :=
  if !t.mounted then (.nodev, t)
  else if .immutable ≤ e.secLevel then (.rofs, t)
  else
    match t.slotOf entryId with
    | Option.none => (.noent, t)
    | some i => (.ok, t.set i { change (t.table i) with ctime := e.now })

def mkdir (name : Name) (parentId : ℕ) : Errno × Dirs :=
  if !t.mounted then (.nodev, t)
  else if .immutable ≤ e.secLevel then (.rofs, t)
  else if maxFilename ≤ name.length then (.inval, t)
  else if !t.dirExists parentId then (.noent, t)
  else if (t.entryIdx name parentId).isSome then (.exist, t)
  else
    match t.freeSlot with
    | Option.none => (.nfile, t)
    | some k => (.ok, t.set k (newDirEntry e.toEnv k name parentId))

def run : FsOp → Errno × Dirs
  | .createRaw name _ parentId => t.createFileRaw e name parentId
  | .create name _ parentId => t.createFile e name parentId
  | .mkdir name parentId => t.mkdir e name parentId
  | .delete name parentId => t.delete e name parentId
  | .rename oldName newName parentId => t.rename e oldName newName parentId
  | .update name _ parentId => t.atomicUpdate e name parentId
  | .chmod entryId mode => t.changeEntry e entryId fun d => { d with mode := mode % 0o10000 }
  | .chown entryId uid gid => t.changeEntry e entryId fun d =>
    { d with ownerUid := uid, ownerGid := gid }

/-- The slot an operation empties: a deleted one, or an update's temporary one. -/
def empties : FsOp → Option ℕ
  | .delete name parentId => t.deletes e name parentId
  | .update name _ parentId =>
    if (t.entryIdx name parentId).isSome then t.deletes e (tmpName name) parentId else Option.none
  | _ => Option.none

end Operations

/-- The parent of the directory, as the loops for `..` look it up. -/
def parentOf (id : ℕ) : Option ℕ :=
  (t.find fun d => d.entryId == id && d.fileType == ftDir && d.isUsed == 1).map fun k =>
    (t.table k).parentId

def enter (current : ℕ) (token : Name) : Except Errno ℕ :=
  if token = [] ∨ token = ['.'] then .ok current
  else if token = ['.', '.'] then
    .ok (if current = 0 then 0 else (t.parentOf current).getD current)
  else
    match t.entryIdx token current with
    | Option.none => .error .noent
    | some idx =>
      if (t.table idx).fileType ≠ ftDir then .error .notdir else .ok (t.table idx).entryId

/-- The loop of `vfs_resolve_path`: the directory reached and the last component. -/
def resolve : List Char → ℕ → Name → Except Errno (ℕ × Name)
  | [], current, token => .ok (current, token)
  | c :: path, current, token =>
    if c = '/' then
      match t.enter current token with
      | .error err => .error err
      | .ok next => resolve path next []
    else if maxFilename - 1 ≤ token.length then .error .inval
    else resolve path current (token ++ [c])

def resolvePath (path : List Char) (startDir : ℕ) : Except Errno (ℕ × Name) :=
  match path with
  | [] => .error .inval
  | '/' :: path => t.resolve path 0 []
  | path => t.resolve path startDir []

end Dirs

def fsModeAllows (mode ownerUid ownerGid uid gid want : ℕ) : Bool :=
  if uid = 0 then true
  else
    let bits := if uid = ownerUid then mode / 64 % 8
      else if gid = ownerGid then mode / 8 % 8
      else mode % 8
    decide (bits &&& want = want)

def fsWantRead : ℕ := 4
def fsWantWrite : ℕ := 2
def fsWantExec : ℕ := 1

namespace Dirs

variable (t : Dirs) (uid gid : ℕ)

/-- `fs_mode_allows` on the entry of a slot. -/
def allows (i want : ℕ) : Bool :=
  fsModeAllows (t.table i).mode (t.table i).ownerUid (t.table i).ownerGid uid gid want

/-- The walk of `check_vfs_access` over the directories above; more than `fs_max_entries` hops are
a cycle. -/
def searchable : ℕ → ℕ → Bool
  | hops, curr =>
    if curr = 0 then true
    else
      match hops with
      | 0 => false
      | hops + 1 =>
        match t.slotOf curr with
        | Option.none => true
        | some up => t.allows uid gid up fsWantExec && searchable hops (t.table up).parentId

def checkVfsAccess (entryId : ℕ) (needsWrite : Bool) : Bool :=
  let want := if needsWrite then fsWantWrite ||| fsWantExec else fsWantRead ||| fsWantExec
  if uid = 0 then true
  else if entryId = 0 then fsModeAllows 0o755 0 0 uid gid want
  else
    match t.slotOf entryId with
    | Option.none => false
    | some idx =>
      t.allows uid gid idx want && t.searchable uid gid t.maxEntries (t.table idx).parentId

def resolveDirFromCwd (cwd : ℕ) (path : List Char) : Except Errno ℕ :=
  match t.resolvePath path cwd with
  | .error err => .error err
  | .ok (parent, basename) =>
    let target : Except Errno ℕ :=
      if basename = [] ∨ basename = ['.'] then .ok parent
      else if basename = ['.', '.'] then .ok ((t.parentOf parent).getD 0)
      else
        match t.entryIdx basename parent with
        | Option.none => .error .noent
        | some idx =>
          if (t.table idx).fileType ≠ ftDir then .error .notdir else .ok (t.table idx).entryId
    match target with
    | .error err => .error err
    | .ok id => if !t.checkVfsAccess uid gid id false then .error .acces else .ok id

end Dirs

namespace Dirs

section Validate

variable (t : Dirs)

/-- The walk to the root in `fs_validate_directory_table`. -/
def walkParents : ℕ → ℕ → Bool
  | 0, curr => decide (curr = 0)
  | hops + 1, curr =>
    if curr = 0 then true
    else if t.maxEntries ≤ curr then false
    else if (t.table curr).isUsed = 0 ∨ (t.table curr).entryId ≠ curr ∨
        (t.table curr).fileType ≠ ftDir then false
    else walkParents hops (t.table curr).parentId

def validEntry (i : ℕ) : Bool :=
  if (t.table i).entryId ≠ i then false
  else if (t.table i).fileType ≠ ftRegular ∧ (t.table i).fileType ≠ ftDir then false
  else if (t.table i).startCluster ≠ 0 ∧ ((t.table i).startCluster < fsFirstDataCluster ∨
      t.totalClusters ≤ (t.table i).startCluster) then false
  else t.walkParents t.maxEntries (t.table i).parentId

def validate : Bool :=
  (List.range t.maxEntries).all fun i => decide ((t.table i).isUsed = 0) || t.validEntry i

end Validate

section Memory

variable (sb : Superblock) (p : TableBlocks sb) (mem : ℕ → UInt8)

/-- Entry `i` of the table in memory. -/
def entryAt (i : ℕ) : DirEntry :=
  let m : TableMem := ⟨mem, fun _ _ => 0, [], false⟩
  { filename :=
    (((List.range maxFilename).map fun k => mem (p.dirTable + i * entrySize + k)).takeWhile
      fun c => c != 0).map fun c => Char.ofNat c.toNat
    fileSize := entryField sb p m i 64 4
    startCluster := entryStart sb p m i
    ownerUid := entryField sb p m i 72 4
    ownerGid := entryField sb p m i 76 4
    mtime := entryField sb p m i 80 4
    ctime := entryField sb p m i 84 4
    entryId := entryIdOf sb p m i
    parentId := entryParent sb p m i
    mode := entryField sb p m i 92 2
    fileType := entryType sb p m i
    isUsed := entryUsed sb p m i }

/-- The directory table `init_fs` leaves in memory. -/
def ofMemory (mounted : Bool) : Dirs := ⟨mounted, sb.maxEntries, sb.totalClusters, entryAt sb p mem⟩

end Memory

end Dirs

end EsdumanOS
