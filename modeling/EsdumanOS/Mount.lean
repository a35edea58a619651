import EsdumanOS.Bcache
import EsdumanOS.Tables

/-!
# Mounting a disk

`init_fs` as a whole, over the block cache: the partition table, the test for a blank disk, the
superblock, the two tables, and the format of a blank disk. `reads` records the sectors asked for
and the answers, newest first.
-/

namespace EsdumanOS

open Lib Errno

def Sector.bytes (s : Sector) : Buf := fun k => if h : k < 512 then s ⟨k, h⟩ else 0

def Sector.ofBuf (b : Buf) : Sector := fun i => b i

def leField (b : Buf) (off : ℕ) : ℕ → ℕ
  | 0 => 0
  | width + 1 => (b off).toNat + 256 * leField b (off + 1) width

lemma leField_lt (b : Buf) : ∀ off width, leField b off width < 256 ^ width
  | _, 0 => by simp [leField]
  | off, width + 1 => by
    have ih := leField_lt b (off + 1) width
    have hb := (b off).toNat_lt
    rw [leField, pow_succ]
    omega

/-- The fields of `disk_superblock_t`. -/
def parseSuperblock (b : Buf) : Superblock where
  magic := leField b 0 4
  formatVersion := leField b 4 2
  sectorSize := leField b 6 2
  totalSectors := leField b 8 4
  dirStart := leField b 12 4
  dirSectors := leField b 16 4
  maxEntries := leField b 20 4
  entrySize := leField b 24 2
  clusterSectors := leField b 26 2
  fatStart := leField b 28 4
  dataStart := leField b 32 4
  totalClusters := leField b 36 4
  flags := leField b 40 4

def mbrSignature : ℕ := 0xAA55
def mbrPartOffset : ℕ := 446
def mbrPartCount : ℕ := 4
def fsPartType : ℕ := 0x7F
def fsPartStartLba : ℕ := 64
def fsDataStartSector : ℕ := 200
def fsLegacyDirSectors : ℕ := 136

def mbrType (mbr : Buf) (i : ℕ) : ℕ := leField mbr (mbrPartOffset + 16 * i + 4) 1
def mbrFirst (mbr : Buf) (i : ℕ) : ℕ := leField mbr (mbrPartOffset + 16 * i + 8) 4
def mbrCount (mbr : Buf) (i : ℕ) : ℕ := leField mbr (mbrPartOffset + 16 * i + 12) 4

/-- The tests of `load_partition` on one entry. -/
def usablePartition (diskSectors : ℕ) (mbr : Buf) (i : ℕ) : Bool :=
  decide (mbrType mbr i = fsPartType) &&
    !(decide (mbrFirst mbr i = 0) || decide (mbrCount mbr i = 0)) &&
    !decide (diskSectors ≤ mbrFirst mbr i) &&
    !decide (diskSectors - mbrFirst mbr i < mbrCount mbr i) &&
    !decide (mbrCount mbr i ≤ fsDataStartSector)

/-- `load_partition`, on a sector 0 that could be read. -/
def loadPartition (diskSectors : ℕ) (mbr : Buf) : Option Partition :=
  if leField mbr 510 2 ≠ mbrSignature then none
  else (firstIdx (usablePartition diskSectors mbr) mbrPartCount).map fun i =>
    ⟨mbrFirst mbr i, mbrCount mbr i, diskSectors⟩

/-- The sector `write_mbr` hands to the cache. -/
def mbrSector (diskSectors : ℕ) : Sector :=
  Sector.ofBuf fun k =>
    if k = mbrPartOffset + 4 then UInt8.ofNat fsPartType
    else if mbrPartOffset + 8 ≤ k ∧ k < mbrPartOffset + 12 then
      leByte fsPartStartLba (k - (mbrPartOffset + 8))
    else if mbrPartOffset + 12 ≤ k ∧ k < mbrPartOffset + 16 then
      leByte (diskSectors - fsPartStartLba) (k - (mbrPartOffset + 12))
    else if 510 ≤ k ∧ k < 512 then leByte mbrSignature (k - 510)
    else 0

/-- Clusters a partition can hold, as `init_fs` estimates them. -/
def estimateClusters (maxSectors : ℕ) : ℕ :=
  min ((maxSectors - fsDataStartSector) / fsClusterSectors) fsMaxClustersCap

section Transfers

/-- A mount under way. -/
structure Mounting where
  cache : Bcache
  mem : ℕ → UInt8
  reads : List (ℕ × Errno)

/-- `n` bytes are copied to address `a`. -/
def storeBytes (mem : ℕ → UInt8) (a n : ℕ) (bytes : Buf) : ℕ → UInt8 :=
  fun k => if a ≤ k ∧ k < a + n then bytes (k - a) else mem k

variable (io : Io) (root : ℕ)

/-- `bcache_read_sector` of an absolute sector, with what it leaves in the buffer. -/
def Mounting.read (m : Mounting) (lba : ℕ) (buf : Buf) : Errno × Buf × Mounting :=
  let r := bcacheReadSector io m.cache root lba (some (Sector.ofBuf buf))
  (r.1, (r.2.1.map Sector.bytes).getD buf,
    { m with cache := r.2.2, reads := (lba, r.1) :: m.reads })

/-- `bcache_write_sector` of an absolute sector. -/
def Mounting.write (m : Mounting) (lba : ℕ) (buf : Buf) : Errno × Mounting :=
  let r := bcacheWriteSector io m.cache root lba (some (Sector.ofBuf buf))
  (r.1, { m with cache := r.2 })

def Partition.lba (d : Partition) (rel : ℕ) : ℕ := u32 (d.partStart + u32 rel)

/-- `disk_region_is_blank` over the sectors listed; `none` when one could not be read. -/
def diskRegionIsBlank : List ℕ → Mounting → Option Bool × Mounting
  | [], m => (some true, m)
  | s :: ss, m =>
    let r := m.read io root s fun _ => 0
    if r.1 ≠ .ok then (none, r.2.2)
    else if (List.range 512).all (fun k => decide (r.2.1 k = 0)) then diskRegionIsBlank ss r.2.2
    else (some false, r.2.2)

variable (d : Partition) (sb : Superblock) (p : TableBlocks sb)

/-- The loop of `init_fs` over the sectors of the directory table, each through a local buffer. -/
def readDirTable : List ℕ → Mounting → Bool × Mounting
  | [], m => (true, m)
  | i :: is, m =>
    let r := m.read io root (d.lba (sb.dirStart + i)) fun _ => 0
    if r.1 ≠ .ok then (false, r.2.2)
    else readDirTable is { r.2.2 with
      mem := storeBytes r.2.2.mem (p.dirTable + i * 512) (dirCopySize sb i) r.2.1 }

def readFatTable : List ℕ → Mounting → Bool × Mounting
  | [], m => (true, m)
  | i :: is, m =>
    let a := p.fat + i * 512
    let r := m.read io root (d.lba (sb.fatStart + i)) fun k => m.mem (a + k)
    let m := { r.2.2 with mem := storeBytes r.2.2.mem a 512 r.2.1 }
    if r.1 ≠ .ok then (false, m) else readFatTable is m

/-- The zeroing in `fs_tables_alloc`. -/
def clearTables (mem : ℕ → UInt8) : ℕ → UInt8 :=
  storeBytes (storeBytes mem p.dirTable (sb.maxEntries * entrySize) fun _ => 0) p.fat
    (sb.totalClusters * 4) fun _ => 0

def markReserved (mem : ℕ → UInt8) : ℕ → UInt8 :=
  (List.range (min fsFirstDataCluster sb.totalClusters)).foldl
    (fun mem i => storeBytes mem (p.fat + i * 4) 4 fun _ => 255) mem

/-- `fs_validate_directory_table` on the table in memory. -/
def tableAccepted (mem : ℕ → UInt8) : Bool :=
  (fsValidateDirectoryTable sb p (List.range sb.maxEntries) ⟨mem, fun _ _ => 0, [], false⟩).1

/-- `save_fat_to_disk`. -/
def writeFatTable (m : Mounting) : Mounting :=
  (List.range (fatSectorsFor sb.totalClusters)).foldl (fun m i =>
    (m.write io root (d.lba (sb.fatStart + i)) fun k => m.mem (p.fat + i * 512 + k)).2) m

/-- `save_directory_to_disk`. -/
def writeDirTable (m : Mounting) : Mounting :=
  (List.range (dirSectorsFor sb.maxEntries)).foldl (fun m i =>
    (m.write io root (d.lba (sb.dirStart + i)) fun k =>
      if k < dirCopySize sb i then m.mem (p.dirTable + i * 512 + k) else 0).2) m

end Transfers

section Init

/-- The file system after `init_fs`: `fs_mounted`, the partition, and the tables if they are
allocated. -/
structure FsGlobals where
  mounted : Bool
  part : Partition
  tables : Option (Σ sb : Superblock, TableBlocks sb)

variable (io : Io) (root : ℕ) (alloc : ∀ sb : Superblock, Option (TableBlocks sb))

/-- `fs_tables_alloc`; `alloc` is what `kmalloc` finds. -/
def tablesAlloc (sb : Superblock) : Option (TableBlocks sb) :=
  if fsTablesAlloc sb.maxEntries sb.totalClusters true = .ok then alloc sb else none

/-- The end of `init_fs`: the tables are read and checked, and the allocation table is written
back. -/
def loadTables (d : Partition) (sb : Superblock) (p : TableBlocks sb) (m : Mounting) :
    FsGlobals × Mounting :=
  let refused : FsGlobals := ⟨false, d, some ⟨sb, p⟩⟩
  let r := readDirTable io root d sb p (List.range (dirSectorsFor sb.maxEntries)) m
  if !r.1 then (refused, r.2)
  else
    let r := readFatTable io root d sb p (List.range (fatSectorsFor sb.totalClusters)) r.2
    if !r.1 then (refused, r.2)
    else
      let m := { r.2 with mem := markReserved sb p r.2.mem }
      if !tableAccepted sb p m.mem then (⟨false, d, none⟩, m)
      else (⟨true, d, some ⟨sb, p⟩⟩, writeFatTable io root d sb p m)

/-- `init_fs` on a disk with a partition of ours. -/
def mountPartition (d : Partition) (m : Mounting) : FsGlobals × Mounting :=
  let r := m.read io root (d.lba fsSuperSector) fun _ => 0
  let sb := parseSuperblock r.2.1
  if r.1 ≠ .ok then (⟨false, d, none⟩, r.2.2)
  else if !loadSuperblock d sb then (⟨false, d, none⟩, r.2.2)
  else
    match tablesAlloc alloc sb with
    | none => (⟨false, d, none⟩, r.2.2)
    | some p => loadTables io root d sb p { r.2.2 with mem := clearTables sb p r.2.2.mem }

/-- The loop of `format_disk` that clears the sectors of the directory table. -/
def clearDirSectors (d : Partition) (sb : Superblock) (m : Mounting) : Mounting :=
  (List.range (dirSectorsFor sb.maxEntries)).foldl
    (fun m i => (m.write io root (d.lba (sb.dirStart + i)) fun _ => 0).2) m

/-- The writes of `format_disk`, once the tables are allocated. -/
def writeFresh (d : Partition) (sb : Superblock) (p : TableBlocks sb) (m : Mounting) : Mounting :=
  let m := { m with mem := markReserved sb p (clearTables sb p m.mem) }
  let m := clearDirSectors io root d sb m
  let m := (m.write io root (d.lba fsSuperSector) fun k => sb.byte k).2
  let m := writeDirTable io root d sb p (writeFatTable io root d sb p m)
  { m with cache := (bcacheFlush io m.cache).2 }

/-- `write_mbr`, `format_disk`, and the mount of what they have written. -/
def formatAndMount (diskSectors : ℕ) (m : Mounting) : FsGlobals × Mounting :=
  let d : Partition := ⟨fsPartStartLba, diskSectors - fsPartStartLba, diskSectors⟩
  let clusters := estimateClusters d.maxSectors
  if clusters < fsFirstDataCluster + 1 then (⟨false, d, none⟩, m)
  else
    let r := m.write io root 0 (Sector.bytes (mbrSector diskSectors))
    if r.1 ≠ .ok then (⟨false, d, none⟩, r.2)
    else
      let sb := formatSuperblock (UInt32.ofNat d.maxSectors) clusters
      match tablesAlloc alloc sb with
      | none => (⟨false, d, none⟩, r.2)
      | some p => loadTables io root d sb p (writeFresh io root d sb p r.2)

/-- `init_fs` on a disk without a partition of ours. -/
def mountUnpartitioned (diskSectors : ℕ) (m : Mounting) : FsGlobals × Mounting :=
  let refused : FsGlobals := ⟨false, ⟨0, 0, diskSectors⟩, none⟩
  let r := m.read io root 0 fun _ => 0
  if r.1 ≠ .ok then (refused, r.2.2)
  else if leField r.2.1 0 4 = fsSuperMagic then (refused, r.2.2)
  else
    let r := diskRegionIsBlank io root (List.range (fsPartStartLba + fsLegacyDirSectors)) r.2.2
    if r.1 = some true then formatAndMount io root alloc diskSectors r.2 else (refused, r.2)

/-- `bcache_init`, which drops whatever the cache holds; the log starts anew. -/
def Bcache.reset (b : Bcache) : Bcache :=
  { bcacheInit b.disk with reqs := b.reqs }

/-- `disk->sector_count`, or 0 without a device. -/
def diskSectors : ℕ := if root = 0 then 0 else (io.dev root).sectorCount

def initFs (b : Bcache) (mem : ℕ → UInt8) : FsGlobals × Mounting :=
  let n := diskSectors io root
  let refused : FsGlobals := ⟨false, ⟨0, 0, n⟩, none⟩
  let m : Mounting := ⟨b.reset, mem, []⟩
  if n ≤ fsPartStartLba + fsDataStartSector then (refused, m)
  else
    let r := m.read io root 0 fun _ => 0
    if r.1 ≠ .ok then (refused, r.2.2)
    else
      match loadPartition n r.2.1 with
      | some d => mountPartition io root alloc d r.2.2
      | none => mountUnpartitioned io root alloc n r.2.2

/-- The tables in memory when every sector of theirs has been read from the disk. -/
def tablesFromDisk (disk : ℕ → Sector) (d : Partition) (sb : Superblock) (p : TableBlocks sb)
    (mem : ℕ → UInt8) : ℕ → UInt8 :=
  let mem := (List.range (dirSectorsFor sb.maxEntries)).foldl (fun mem i =>
    storeBytes mem (p.dirTable + i * 512) (dirCopySize sb i)
      (Sector.bytes (disk (d.lba (sb.dirStart + i))))) (clearTables sb p mem)
  let mem := (List.range (fatSectorsFor sb.totalClusters)).foldl (fun mem i =>
    storeBytes mem (p.fat + i * 512) 512 (Sector.bytes (disk (d.lba (sb.fatStart + i))))) mem
  markReserved sb p mem

def DiskBlank (disk : ℕ → Sector) (reads : List (ℕ × Errno)) : Prop :=
  ∀ s < fsPartStartLba + fsLegacyDirSectors, (s, ok) ∈ reads ∧ disk s = fun _ => 0

/-- Partition table, superblock and directory table have been read and accepted. -/
def DiskAccepted (diskSectors : ℕ) (disk : ℕ → Sector) (mem : ℕ → UInt8)
    (reads : List (ℕ × Errno)) : Prop :=
  ∃ (d : Partition) (sb : Superblock) (p : TableBlocks sb),
    ((0, ok) ∈ reads ∧ loadPartition diskSectors (Sector.bytes (disk 0)) = some d) ∧
    ((d.lba fsSuperSector, ok) ∈ reads ∧
      sb = parseSuperblock (Sector.bytes (disk (d.lba fsSuperSector))) ∧
      loadSuperblock d sb = true) ∧
    (∀ i < dirSectorsFor sb.maxEntries, (d.lba (sb.dirStart + i), ok) ∈ reads) ∧
    (∀ i < fatSectorsFor sb.totalClusters, (d.lba (sb.fatStart + i), ok) ∈ reads) ∧
    tableAccepted sb p (tablesFromDisk disk d sb p mem) = true

end Init

section Regions

/-- A run of sectors relative to the partition, with their numbers in 32 bits. -/
def region (start count : ℕ) : Finset ℕ :=
  (Finset.range count).image fun i => u32 (start + i)

variable (sb : Superblock)

def dirRegion : Finset ℕ := region sb.dirStart (dirSectorsFor sb.maxEntries)
def fatRegion : Finset ℕ := region sb.fatStart (fatSectorsFor sb.totalClusters)
def dataRegion : Finset ℕ := region sb.dataStart (sb.totalClusters * sb.clusterSectors)

/-- `fs_cluster_to_sector`, with the superblock as it was read. -/
def clusterToSector (cluster : ℕ) : ℕ :=
  u32 (sb.dataStart + u32 (cluster * sb.clusterSectors))

/-- The superblock, the tables and the data are apart and inside the partition, with every data
cluster. -/
structure RegionsApart (maxSectors : ℕ) : Prop where
  disjoint : [{fsSuperSector}, dirRegion sb, fatRegion sb, dataRegion sb].Pairwise Disjoint
  inside : ∀ r ∈ [{fsSuperSector}, dirRegion sb, fatRegion sb, dataRegion sb], ∀ s ∈ r,
    s < maxSectors
  clusters : ∀ c, fsFirstDataCluster ≤ c → c < sb.totalClusters → ∀ k < sb.clusterSectors,
    u32 (clusterToSector sb c + k) ∈ dataRegion sb

/-- Each region ends before the next one starts, and the last inside the partition. -/
def RegionsFit (maxSectors : ℕ) : Prop :=
  sb.dirStart + dirSectorsFor sb.maxEntries ≤ sb.fatStart ∧
    sb.fatStart + fatSectorsFor sb.totalClusters ≤ sb.dataStart ∧
    sb.dataStart + sb.totalClusters * sb.clusterSectors ≤ maxSectors

end Regions

end EsdumanOS
