import EsdumanOS.Wellformed

/-!
# Open files

`vfs_file_t`: `fs_open` takes a snapshot of the entry, `fs_read_raw` reads along the chain it
starts, and writes are collected in a buffer that `fs_commit_writes` hands to `fs_atomic_update`
under the name saved at open time.
-/

namespace EsdumanOS

open Lib

structure VfsFile where
  filename : Name
  fileSize : ℕ
  currentOffset : ℕ
  startCluster : ℕ
  refCount : ℤ
  inodeIdx : ℕ
  writeBuf : Buf
  writeLen : ℕ
  writeCap : ℕ
  dirty : Bool

def fsOpen (s : Fs) (name : Name) (parentId : ℕ) : Errno × Option VfsFile :=
  if !s.mounted then (.nodev, none)
  else
    match firstIdx (fun i => (s.dirTable i).named1 parentId name) s.geo.maxEntries with
    | none => (.noent, none)
    | some i =>
      (.ok, some
        { filename := (s.dirTable i).filename
          fileSize := (s.dirTable i).fileSize
          currentOffset := 0
          startCluster := (s.dirTable i).startCluster
          refCount := 1
          inodeIdx := i
          writeBuf := fun _ => 0
          writeLen := 0
          writeCap := 0
          dirty := false })

/-- The inner loop of `fs_read_raw`: what has been copied, and `offset_in_cluster`. -/
def readSectors (e : Env) (s : Fs) (base size : ℕ) : ℕ → List UInt8 × ℕ → List UInt8 × ℕ
  | 0, st => st
  | fuel + 1, (out, off) =>
    if off < clusterBytes ∧ out.length < size then
      let buf := (fsReadSector e s (base + off / 512)).2
      let n := if 512 - off % 512 > size - out.length then size - out.length else 512 - off % 512
      readSectors e s base size fuel
        (out ++ (List.range n).map fun i => buf (off % 512 + i), off + n)
    else (out, off)

/-- The outer loop, along the chain. Each round copies a byte, so `size` rounds are enough. -/
def readClusters (e : Env) (s : Fs) (size : ℕ) : ℕ → ℕ → List UInt8 × ℕ → List UInt8
  | 0, _, (out, _) => out
  | fuel + 1, current, (out, off) =>
    if out.length < size ∧ current ≠ fatEof then
      if s.geo.totalClusters ≤ current then out
      else
        let st := readSectors e s (fsClusterToSector s.geo current) size fsClusterSectors (out, off)
        readClusters e s size fuel (s.fat current) (st.1, 0)
    else out

def skipClusters (s : Fs) : ℕ → ℕ → Option ℕ
  | 0, current => some current
  | n + 1, current =>
    if current = fatEof ∨ s.geo.totalClusters ≤ current then none
    else skipClusters s n (s.fat current)

/-- The cluster `n` places behind `current` on its chain; nothing when the chain ends before. -/
def clusterAt (s : Fs) : ℕ → ℕ → Option ℕ
  | 0, current => if current = fatEof ∨ s.geo.totalClusters ≤ current then none else some current
  | n + 1, current =>
    if current = fatEof ∨ s.geo.totalClusters ≤ current then none
    else clusterAt s n (s.fat current)

/-- The sector that holds byte `p` of the chain. -/
def sectorAt (s : Fs) (start p : ℕ) : Option ℕ :=
  (clusterAt s (p / clusterBytes) start).map fun c =>
    fsClusterToSector s.geo c + p % clusterBytes / 512

/-- `fs_read_raw`: the bytes copied out, and the file with its offset moved on. -/
def fsReadRaw (e : Env) (s : Fs) (file : VfsFile) (size : ℕ) : List UInt8 × VfsFile :=
  if file.fileSize ≤ file.currentOffset then ([], file)
  else
    let size := if u32 (file.currentOffset + size) > file.fileSize
      then file.fileSize - file.currentOffset else size
    match skipClusters s (file.currentOffset / clusterBytes) file.startCluster with
    | none => ([], file)
    | some current =>
      let out := readClusters e s size size current ([], file.currentOffset % clusterBytes)
      (out, { file with currentOffset := u32 (file.currentOffset + out.length) })

def maxFileWriteBytes : ℕ := 65536

/-- The doubling loop of `fs_write_buffered`, from 512 at least to `maxFileWriteBytes`. -/
def growCap (needed : ℕ) : ℕ → ℕ → ℕ
  | 0, cap => cap
  | fuel + 1, cap => if cap < needed then growCap needed fuel (cap * 2) else cap

/-- `fs_write_buffered` of `size` bytes; `kreallocOk` is the outcome of growing the buffer. -/
def fsWriteBuffered (file : VfsFile) (data : Buf) (size : ℕ) (kreallocOk : Bool) :
    (Errno ⊕ ℕ) × VfsFile :=
  if size = 0 then (.inr 0, file)
  else if size > maxFileWriteBytes ∨ file.writeLen > maxFileWriteBytes - size then
    (.inl .fbig, file)
  else
    let needed := file.writeLen + size
    let grows := needed > file.writeCap
    if grows ∧ !kreallocOk then (.inl .nomem, file)
    else
      let cap := growCap needed 8 (if file.writeCap = 0 then 512 else file.writeCap)
      (.inr size, { file with
        writeBuf := fun i => if i < file.writeLen then file.writeBuf i else data (i - file.writeLen)
        writeLen := needed
        writeCap := if grows then min cap maxFileWriteBytes else file.writeCap
        dirty := true })

def fsCommitWrites (e : Env) (s : Fs) (file : VfsFile) : Errno × Fs × VfsFile :=
  if !file.dirty then (.ok, s, file)
  else
    let closed := { file with writeBuf := fun _ => 0, writeLen := 0, writeCap := 0, dirty := false }
    if s.geo.maxEntries ≤ file.inodeIdx then (.badf, s, closed)
    else
      let (res, s') := fsAtomicUpdate e s file.filename file.writeBuf file.writeLen
        (s.dirTable file.inodeIdx).parentId
      (res, s', if res = .ok then { closed with fileSize := file.writeLen } else closed)

end EsdumanOS
