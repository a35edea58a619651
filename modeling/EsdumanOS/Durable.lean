import EsdumanOS.Vfs

/-!
# What a reported success leaves on the disk

The operations of `vfs.c` drop the status of `fs_write_sector`. Here are the bytes that have to be
on the disk after an operation, and the writes the block layer has to take for it.
-/

namespace EsdumanOS

open Lib

abbrev Answers := ℕ → Buf → Errno

def Env.answering (e : Env) (w : Answers) : Env := { e with writeStatus := w }

def takesAll : Answers := fun _ _ => .ok

section Update

variable (e : Env) (w : Fin 4 → Answers) (s : Fs) (name : Name) (content : Buf)
  (size parentId : ℕ)

/-- `fs_atomic_update` after its first `fs_delete`. -/
def updateCleared : Fs := (fsDelete (e.answering (w 0)) s (tmpName name) parentId).2

/-- The volume in which `fs_atomic_update` creates a file. -/
def updateBase : Fs :=
  if (firstIdx (fun i => (s.dirTable i).named parentId name) s.geo.maxEntries).isNone then s
  else updateCleared e w s name parentId

/-- `fs_atomic_update`, step by step. -/
def fsAtomicUpdateBy : Errno × Fs :=
  if !s.mounted then (.nodev, s)
  else if .immutable ≤ e.secLevel then (.rofs, s)
  else if (firstIdx (fun i => (s.dirTable i).named parentId name) s.geo.maxEntries).isNone then
    fsCreateFile (e.answering (w 1)) s name content size parentId
  else
    match fsCreateFile (e.answering (w 1)) (updateCleared e w s name parentId) (tmpName name)
        content size parentId with
    | (.ok, s) =>
      match lastIdx (fun i => (s.dirTable i).named parentId name) s.geo.maxEntries,
          lastIdx (fun i => (s.dirTable i).named parentId (tmpName name)) s.geo.maxEntries with
      | some orig, some tmp =>
        let s := saveDirectoryToDisk (e.answering (w 2)) (s.setDir (swapData e s orig tmp))
        (.ok, (fsDelete (e.answering (w 3)) s (tmpName name) parentId).2)
      | _, _ => (.noent, (fsDelete (e.answering (w 3)) s (tmpName name) parentId).2)
    | (err, s) => (err, s)

/-- The volume that the last `fs_delete` of an update finds. -/
def updateSwapped : Fs :=
  let s := (fsCreateFile (e.answering (w 1)) (updateCleared e w s name parentId) (tmpName name)
    content size parentId).2
  match lastIdx (fun i => (s.dirTable i).named parentId name) s.geo.maxEntries,
      lastIdx (fun i => (s.dirTable i).named parentId (tmpName name)) s.geo.maxEntries with
  | some orig, some tmp =>
    saveDirectoryToDisk (e.answering (w 2)) (s.setDir (swapData e s orig tmp))
  | _, _ => s

end Update

def FatOnDisk (s : Fs) : Prop :=
  ∀ k < s.geo.totalClusters * 4, s.disk (s.geo.fatStart + k / 512) (k % 512) = fatByte s.fat k

def DirOnDisk (s : Fs) : Prop :=
  ∀ k < entrySize * s.geo.maxEntries,
    s.disk (s.geo.dirStart + k / 512) (k % 512) = dirByte s.dirTable k

def ChainOnDisk (s : Fs) (l : List ℕ) (content : Buf) (size : ℕ) : Prop :=
  ∀ p < size, ∃ c, l[p / clusterBytes]? = some c ∧
    s.disk (fsClusterToSector s.geo c + p % clusterBytes / 512) (p % 512) = content p

section Taken

variable (g : Geometry)

/-- Byte `j` of the sector is a byte of the allocation table. -/
def FatCell (rel j : ℕ) : Prop :=
  ∃ k < g.totalClusters * 4, rel = g.fatStart + k / 512 ∧ j = k % 512

/-- Byte `j` of the sector is a byte of the directory table. -/
def DirCell (rel j : ℕ) : Prop :=
  ∃ k < entrySize * g.maxEntries, rel = g.dirStart + k / 512 ∧ j = k % 512

def TableCell (rel j : ℕ) : Prop := FatCell g rel j ∨ DirCell g rel j

/-- Byte `j` of the sector is one of the first `size` bytes of the chain. -/
def DataCell (l : List ℕ) (size rel j : ℕ) : Prop :=
  ∃ p < size, ∃ c, l[p / clusterBytes]? = some c ∧
    rel = fsClusterToSector g c + p % clusterBytes / 512 ∧ j = p % 512

/-- Every sector that has to change from `before` to `after`, as far as the cells go, is taken. -/
def Takes (w : Answers) (cells : ℕ → ℕ → Prop) (before after : ℕ → Buf) : Prop :=
  ∀ rel, (∃ j, cells rel j ∧ before rel j ≠ after rel j) → w rel (after rel) = .ok

end Taken

def CreateStored (e : Env) (s : Fs) (name : Name) (content : Buf) (size parentId : ℕ) : Prop :=
  let s' := (fsCreateFileRaw e s name content size parentId).2
  (FatOnDisk s' ∧ DirOnDisk s') ∧ ChainOnDisk s' (newChain s size) content size

def CreateTaken (e : Env) (s : Fs) (name : Name) (content : Buf) (size parentId : ℕ) : Prop :=
  let after := (fsCreateFileRaw (e.answering takesAll) s name content size parentId).2.disk
  size + clusterBytes ≤ 2 ^ 32 ∧ Takes e.writeStatus (TableCell s.geo) s.disk after ∧
    Takes e.writeStatus (DataCell s.geo (newChain s size) size) s.disk after

def UpdateStored (e : Env) (w : Fin 4 → Answers) (s : Fs) (name : Name) (content : Buf)
    (size parentId : ℕ) : Prop :=
  let s' := (fsAtomicUpdateBy e w s name content size parentId).2
  (FatOnDisk s' ∧ DirOnDisk s') ∧ ∀ b n, storedForm e content size = some (b, n) →
    ChainOnDisk s' (newChain (updateBase e w s name parentId) n) b n

/-- A new file is created as `CreateTaken` has it. For an existing one, the data sectors are taken
with the temporary file, and the table sectors in the last step. -/
def UpdateTaken (e : Env) (w : Fin 4 → Answers) (s : Fs) (name : Name) (content : Buf)
    (size parentId : ℕ) : Prop :=
  ∀ b n, storedForm e content size = some (b, n) →
    if (firstIdx (fun i => (s.dirTable i).named parentId name) s.geo.maxEntries).isNone then
      CreateTaken (e.answering (w 1)) s name b n parentId
    else
      let cleared := updateCleared e w s name parentId
      let swapped := updateSwapped e w s name content size parentId
      n + clusterBytes ≤ 2 ^ 32 ∧
        Takes (w 1) (DataCell s.geo (newChain cleared n) n) cleared.disk
          (fsCreateFileRaw (e.answering takesAll) cleared (tmpName name) b n parentId).2.disk ∧
        Takes (w 3) (TableCell s.geo) swapped.disk
          (fsDelete (e.answering takesAll) swapped (tmpName name) parentId).2.disk

end EsdumanOS
