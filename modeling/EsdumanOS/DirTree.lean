import EsdumanOS.Directory
import EsdumanOS.OpenFile

/-!
# The directory tree

What a directory table says about the tree: every entry has a chain of directories up to the root
(`ParentChain`), a task reaches a directory if it may search all of them (`Granted`), and a name
belongs to one slot, whichever scan looks for it (`LookupsAgree`).
-/

namespace EsdumanOS

open Lib

namespace Dirs

variable (t : Dirs)

/-- Slot `id` holds a directory. -/
def Dir (id : ℕ) : Prop := t.Used id ∧ (t.table id).fileType = ftDir

/-- From `p` the parent links lead through the directories of the list to the root. -/
inductive ParentChain : ℕ → List ℕ → Prop
  | root : ParentChain 0 []
  | up {p : ℕ} {l : List ℕ} : p ≠ 0 → t.Dir p → ParentChain (t.table p).parentId l →
      ParentChain p (p :: l)

/-- What `fs_validate_directory_table` is to accept of a used slot. -/
structure WellPlaced (i : ℕ) : Prop where
  entryId : (t.table i).entryId = i
  fileType : (t.table i).fileType = ftRegular ∨ (t.table i).fileType = ftDir
  startCluster : (t.table i).startCluster = 0 ∨ fsFirstDataCluster ≤ (t.table i).startCluster ∧
    (t.table i).startCluster < t.totalClusters
  chain : ∃ l, t.ParentChain (t.table i).parentId l

section Access

variable (uid gid : ℕ)

/-- The task may search every directory from `p` up to the root, all of which exist. -/
inductive Granted : ℕ → Prop
  | root : Granted 0
  | up {p : ℕ} : p ≠ 0 → t.Dir p → t.allows uid gid p fsWantExec = true →
      Granted (t.table p).parentId → Granted p

/-- What `check_vfs_access` asks of the directory itself. -/
def wanted (needsWrite : Bool) : ℕ :=
  if needsWrite then fsWantWrite ||| fsWantExec else fsWantRead ||| fsWantExec

/-- `check_vfs_access` is the permission on the directory and on the way to it. -/
def AccessExact : Prop :=
  ∀ uid gid needsWrite, uid ≠ 0 →
    t.checkVfsAccess uid gid 0 needsWrite = fsModeAllows 0o755 0 0 uid gid (wanted needsWrite) ∧
    ∀ id ≠ 0, t.Dir id → (t.checkVfsAccess uid gid id needsWrite = true ↔
      t.allows uid gid id (wanted needsWrite) = true ∧ t.Granted uid gid (t.table id).parentId)

/-- The slot that an operation empties has no child that only the test `is_used == 1` misses. -/
def Spares (e : DirEnv) (op : FsOp) : Prop :=
  ∀ i ≠ 0, t.empties e op = some i → ∀ j, t.Used j → (t.table j).parentId = i →
    (t.table j).isUsed = 1

end Access

section Lookups

variable (name : Name) (parentId : ℕ)

/-- The scan of `fs_open`. -/
def openSlot : Option ℕ := t.find fun d => d.named1 parentId name

/-- The scan of `fs_delete`. -/
def deleteSlot : Option ℕ := t.find fun d => d.named1 parentId name

/-- The second scan of `fs_rename`, for the old name. -/
def renameSlot : Option ℕ := t.find fun d => d.named1 parentId name

/-- The scan of `fs_create_file_raw`. -/
def existingSlot : Option ℕ := t.findLast fun d => d.named parentId name

/-- The scans agree whether there is such an entry, and which one it is. -/
structure LookupsAgree : Prop where
  opens : t.openSlot name parentId = t.entryIdx name parentId
  deletes : t.deleteSlot name parentId = t.entryIdx name parentId
  renames : t.renameSlot name parentId = t.entryIdx name parentId
  creates : t.existingSlot name parentId = t.entryIdx name parentId

/-- At most one used slot has the name, and its flag is 1. -/
structure OneEntry : Prop where
  single : ∀ i < t.maxEntries, ∀ j < t.maxEntries, (t.table i).named parentId name = true →
    (t.table j).named parentId name = true → i = j
  flag : ∀ i < t.maxEntries, (t.table i).named parentId name = true → (t.table i).isUsed = 1

end Lookups

def step (t : Dirs) (call : DirEnv × FsOp) : Dirs := (t.run call.1 call.2).2

def runAll (t : Dirs) (calls : List (DirEnv × FsOp)) : Dirs := calls.foldl step t

end Dirs

end EsdumanOS
