import EsdumanOS.Base
import EsdumanOS.Lib.Chain
import EsdumanOS.Lib.Runs

/-!
# The mounted volume

The in-memory tables of `vfs.c`, the geometry the superblock records, the sectors of the partition,
and the functions that move the tables to the disk and hand out clusters. Sector numbers are
relative to the partition.
-/

namespace EsdumanOS

open Lib Function

def fatEof : ℕ := 0xFFFFFFFF
def fatFree : ℕ := 0
def maxFilename : ℕ := 64
def fsClusterSectors : ℕ := 8
def fsFirstDataCluster : ℕ := 2
def fsMaxEntriesCap : ℕ := 8192
def fsMaxClustersCap : ℕ := 262144
def entrySize : ℕ := 96
def ftRegular : ℕ := 0
def ftDir : ℕ := 1

abbrev Name := List Char

/-- `disk_file_entry_t`. -/
structure DirEntry where
  filename : Name
  fileSize : ℕ
  startCluster : ℕ
  ownerUid : ℕ
  ownerGid : ℕ
  mtime : ℕ
  ctime : ℕ
  entryId : ℕ
  parentId : ℕ
  mode : ℕ
  fileType : ℕ
  isUsed : ℕ
  deriving DecidableEq, Repr

def DirEntry.zero : DirEntry :=
  ⟨[], 0, 0, 0, 0, 0, 0, 0, 0, 0, 0, 0⟩

/-- An entry as `fs_delete` leaves it. -/
def DirEntry.freed (d : DirEntry) : DirEntry :=
  { d with isUsed := 0, filename := [] }

/-- Byte `k` of the packed entry. -/
def DirEntry.byte (d : DirEntry) (k : ℕ) : UInt8 :=
  if k < 64 then ((d.filename[k]?).map fun c => UInt8.ofNat c.toNat).getD 0
  else if k < 68 then leByte d.fileSize (k - 64)
  else if k < 72 then leByte d.startCluster (k - 68)
  else if k < 76 then leByte d.ownerUid (k - 72)
  else if k < 80 then leByte d.ownerGid (k - 76)
  else if k < 84 then leByte d.mtime (k - 80)
  else if k < 88 then leByte d.ctime (k - 84)
  else if k < 90 then leByte d.entryId (k - 88)
  else if k < 92 then leByte d.parentId (k - 90)
  else if k < 94 then leByte d.mode (k - 92)
  else if k < 95 then UInt8.ofNat d.fileType
  else UInt8.ofNat d.isUsed

/-- Sectors a directory table of `entries` occupies. -/
def dirSectorsFor (entries : ℕ) : ℕ :=
  (entries * entrySize + 511) / 512

/-- Sectors an allocation table of `clusters` occupies. -/
def fatSectorsFor (clusters : ℕ) : ℕ :=
  (clusters * 4 + 511) / 512

/-- The fields of the superblock, as `format_disk` lays them out inside a partition. -/
structure Geometry where
  dirStart : ℕ
  fatStart : ℕ
  dataStart : ℕ
  maxEntries : ℕ
  totalClusters : ℕ
  maxEntries_le : maxEntries ≤ fsMaxEntriesCap
  totalClusters_le : totalClusters ≤ fsMaxClustersCap
  dir_before_fat : dirStart + dirSectorsFor maxEntries ≤ fatStart
  fat_before_data : fatStart + fatSectorsFor totalClusters ≤ dataStart
  data_lt : dataStart + totalClusters * fsClusterSectors < 2 ^ 32

/-- The mounted file system: the tables in memory and the sectors behind the block layer. -/
structure Fs where
  geo : Geometry
  mounted : Bool
  dirTable : ℕ → DirEntry
  fat : ℕ → ℕ
  disk : ℕ → Buf

namespace Fs

variable (s : Fs)

@[simps -fullyApplied]
def setDir (table : ℕ → DirEntry) : Fs := { s with dirTable := table }

@[simps -fullyApplied]
def setFat (fat : ℕ → ℕ) : Fs := { s with fat := fat }

@[simps -fullyApplied]
def setDisk (disk : ℕ → Buf) : Fs := { s with disk := disk }

/-- The volume with slot `i` of the directory table rewritten. -/
def setEntry (i : ℕ) (d : DirEntry) : Fs := s.setDir (update s.dirTable i d)

@[simp] lemma setEntry_dirTable (i d) :
    (s.setEntry i d).dirTable = update s.dirTable i d := rfl

end Fs

/-- The keyed primitives `crypto_fs.c` calls, under `kernel_master_key`. -/
structure Crypto where
  hmacSha256 : Buf → ℕ → Buf
  aesCbcEncrypt : Buf → Buf → ℕ → Buf

/-- What a call reads from the rest of the kernel. -/
structure Env where
  secLevel : SecLevel
  keyUsable : Bool
  uid : ℕ
  gid : ℕ
  now : ℕ
  kmallocOk : Bool
  iv : Option Buf
  crypto : Crypto
  writeStatus : ℕ → Buf → Errno
  readFault : ℕ → Option Buf

def fsClusterToSector (g : Geometry) (cluster : ℕ) : ℕ :=
  u32 (g.dataStart + u32 (cluster * fsClusterSectors))

/-- `fs_read_sector`: a read the block layer refuses leaves something else in the buffer. -/
def fsReadSector (e : Env) (s : Fs) (rel : ℕ) : Errno × Buf :=
  match e.readFault rel with
  | none => (.ok, s.disk rel)
  | some junk => (.io, junk)

def fsWriteSector (e : Env) (s : Fs) (rel : ℕ) (buffer : Buf) : Errno × Fs :=
  match e.writeStatus rel buffer with
  | .ok => (.ok, s.setDisk (update s.disk rel buffer))
  | err => (err, s)

/-- Byte `k` of the allocation table in memory. -/
def fatByte (fat : ℕ → ℕ) (k : ℕ) : UInt8 :=
  leByte (fat (k / 4)) (k % 4)

/-- Byte `k` of the directory table in memory. -/
def dirByte (dirTable : ℕ → DirEntry) (k : ℕ) : UInt8 :=
  (dirTable (k / entrySize)).byte (k % entrySize)

/-- `save_fat_to_disk`; the status of each write is dropped. -/
def saveFatToDisk (e : Env) (s : Fs) : Fs :=
  (List.range (fatSectorsFor s.geo.totalClusters)).foldl
    (fun s i => (fsWriteSector e s (s.geo.fatStart + i) fun j => fatByte s.fat (i * 512 + j)).2) s

/-- `save_directory_to_disk`; the status of each write is dropped. -/
def saveDirectoryToDisk (e : Env) (s : Fs) : Fs :=
  let totalBytes := entrySize * s.geo.maxEntries
  (List.range (dirSectorsFor s.geo.maxEntries)).foldl
    (fun s i =>
      let copySize := if i * 512 + 512 > totalBytes then totalBytes % 512 else 512
      (fsWriteSector e s (s.geo.dirStart + i) fun j =>
        if j < copySize then dirByte s.dirTable (i * 512 + j) else 0).2) s

/-- The local variables of the search loop in `allocate_fat_chain`. -/
structure AllocState where
  fat : ℕ → ℕ
  startCluster : ℕ
  currentCluster : ℕ
  allocated : ℕ

/-- One iteration of that loop; the test `allocated < count` of its header comes first. -/
def allocStep (count : ℕ) (a : AllocState) (i : ℕ) : AllocState :=
  if a.allocated < count then
    if a.fat i = fatFree then
      let linked := if a.startCluster = fatEof then a.fat
        else update a.fat a.currentCluster i
      { fat := update linked i fatEof
        startCluster := if a.startCluster = fatEof then i else a.startCluster
        currentCluster := i
        allocated := a.allocated + 1 }
    else a
  else a

def dataClusters (totalClusters : ℕ) : List ℕ :=
  List.range' fsFirstDataCluster (totalClusters - fsFirstDataCluster)

/-- `allocate_fat_chain`: the first cluster of the chain, or `fatFree` with a partial chain rolled
back. -/
def allocateFatChain (e : Env) (s : Fs) (count : ℕ) : ℕ × Fs :=
  if count = 0 then (fatEof, s)
  else
    let a := (dataClusters s.geo.totalClusters).foldl (allocStep count)
      ⟨s.fat, fatEof, fatEof, 0⟩
    if a.allocated < count then
      (fatFree, s.setFat
        (release (· == fatEof) fatFree (s.geo.totalClusters + 1) a.fat a.startCluster))
    else (a.startCluster, saveFatToDisk e (s.setFat a.fat))

def freeClusters (s : Fs) : List ℕ :=
  (dataClusters s.geo.totalClusters).filter fun c => s.fat c == fatFree

end EsdumanOS
