import EsdumanOS.OpenFile

/-!
# What the walks through the FAT touch

The loops of `fs_delete` and `fs_read_raw` once more, with the entries of the allocation table they
use and the sectors they read. A loop that is not over within its turns has the result `none`.
-/

namespace EsdumanOS

open Lib

/-- The indices of `file_allocation_table` used and the sectors read. -/
structure Touched where
  fat : List ℕ
  sectors : List ℕ
  deriving DecidableEq

namespace Touched

def empty : Touched := ⟨[], []⟩

def append (a b : Touched) : Touched := ⟨a.fat ++ b.fat, a.sectors ++ b.sectors⟩

/-- Only entries of the allocation table, and only sectors of its clusters. -/
structure Within (g : Geometry) (r : Touched) : Prop where
  fat : ∀ c ∈ r.fat, c < g.totalClusters
  sectors : ∀ x ∈ r.sectors, ∃ c < g.totalClusters, ∃ j < fsClusterSectors,
    x = fsClusterToSector g c + j

end Touched

/-- `fs_delete`. The loop is given one turn more than the table has entries. -/
def fsDeleteLog (e : Env) (s : Fs) (name : Name) (parentId : ℕ) : Option ((Errno × Fs) × Touched) :=
  if !s.mounted then some ((.nodev, s), .empty)
  else if .immutable ≤ e.secLevel then some ((.rofs, s), .empty)
  else
    match firstIdx (fun i => (s.dirTable i).named1 parentId name) s.geo.maxEntries with
    | none => some ((.noent, s), .empty)
    | some i =>
      if (s.dirTable i).fileType = ftDir ∧ (firstIdx (fun c => (s.dirTable c).isUsed == 1 &&
          (s.dirTable c).parentId == (s.dirTable i).entryId) s.geo.maxEntries).isSome then
        some ((.notempty, s), .empty)
      else
        match releaseLog (fun c => c == fatEof || c == fatFree || s.geo.totalClusters ≤ c) fatFree
            (s.geo.totalClusters + 1) s.fat (s.dirTable i).startCluster with
        | none => none
        | some (fat, log) =>
          let s := saveFatToDisk e (s.setFat fat)
          some ((.ok, saveDirectoryToDisk e (s.setEntry i (s.dirTable i).freed)), ⟨log, []⟩)

/-- The inner loop of `fs_read_raw`. -/
def sectorLoop (e : Env) (s : Fs) (base size : ℕ) :
    ℕ → List UInt8 × ℕ → Option ((List UInt8 × ℕ) × Touched)
  | 0, _ => none
  | turns + 1, (out, off) =>
    if off < clusterBytes ∧ out.length < size then
      let buf := (fsReadSector e s (base + off / 512)).2
      let n := if 512 - off % 512 > size - out.length then size - out.length else 512 - off % 512
      match sectorLoop e s base size turns
          (out ++ (List.range n).map fun i => buf (off % 512 + i), off + n) with
      | none => none
      | some (st, r) => some (st, .append ⟨[], [base + off / 512]⟩ r)
    else some ((out, off), .empty)

def clusterLoop (e : Env) (s : Fs) (size : ℕ) :
    ℕ → ℕ → List UInt8 × ℕ → Option (List UInt8 × Touched)
  | 0, _, _ => none
  | turns + 1, current, (out, off) =>
    if out.length < size ∧ current ≠ fatEof then
      if s.geo.totalClusters ≤ current then some (out, .empty)
      else
        match sectorLoop e s (fsClusterToSector s.geo current) size (fsClusterSectors + 1)
            (out, off) with
        | none => none
        | some (st, r) =>
          match clusterLoop e s size turns (s.fat current) (st.1, 0) with
          | none => none
          | some (out, r') => some (out, .append r (.append ⟨[current], []⟩ r'))
    else some (out, .empty)

def skipLoop (s : Fs) : ℕ → ℕ → Option ℕ × List ℕ
  | 0, current => (some current, [])
  | n + 1, current =>
    if current = fatEof ∨ s.geo.totalClusters ≤ current then (none, [])
    else
      let (found, log) := skipLoop s n (s.fat current)
      (found, current :: log)

/-- `fs_read_raw`. The outer loop is given one turn more than bytes are wanted. -/
def fsReadRawLog (e : Env) (s : Fs) (file : VfsFile) (size : ℕ) :
    Option ((List UInt8 × VfsFile) × Touched) :=
  if file.fileSize ≤ file.currentOffset then some (([], file), .empty)
  else
    let size := if u32 (file.currentOffset + size) > file.fileSize
      then file.fileSize - file.currentOffset else size
    match skipLoop s (file.currentOffset / clusterBytes) file.startCluster with
    | (none, log) => some (([], file), ⟨log, []⟩)
    | (some current, log) =>
      match clusterLoop e s size (size + 1) current ([], file.currentOffset % clusterBytes) with
      | none => none
      | some (out, r) =>
        some ((out, { file with currentOffset := u32 (file.currentOffset + out.length) }),
          .append ⟨log, []⟩ r)

/-- The deletion comes to an end and stays within the table; it reads no sector. -/
def DeleteContained (e : Env) (s : Fs) (name : Name) (parentId : ℕ) : Prop :=
  ∃ r, fsDeleteLog e s name parentId = some (fsDelete e s name parentId, r) ∧
    r.Within s.geo ∧ r.sectors = []

/-- The read ends, stays within the table and its clusters, and returns no more than is wanted and
left. -/
def ReadContained (e : Env) (s : Fs) (file : VfsFile) (size : ℕ) : Prop :=
  ∃ r, fsReadRawLog e s file size = some (fsReadRaw e s file size, r) ∧ r.Within s.geo ∧
    (fsReadRaw e s file size).1.length ≤ min size (file.fileSize - file.currentOffset)

/-- The end of the request does not wrap, or wraps behind the end of the file, or the file is
empty. -/
def ClipsRequest (s : Fs) (file : VfsFile) (size : ℕ) : Prop :=
  file.currentOffset < file.fileSize → file.startCluster < s.geo.totalClusters →
    file.startCluster ≠ fatEof →
      file.currentOffset + size < 2 ^ 32 ∨ file.fileSize < u32 (file.currentOffset + size)

end EsdumanOS
