import EsdumanOS.Wellformed

/-!
# Laying a volume out

`format_disk`: the number of directory entries from the size of the partition, the position of the
three regions, the fresh tables, and the superblock that records them.
-/

namespace EsdumanOS

/-- `disk_superblock_t`, the key slot apart. -/
structure Superblock where
  magic : ℕ
  formatVersion : ℕ
  sectorSize : ℕ
  totalSectors : ℕ
  dirStart : ℕ
  dirSectors : ℕ
  maxEntries : ℕ
  entrySize : ℕ
  clusterSectors : ℕ
  fatStart : ℕ
  dataStart : ℕ
  totalClusters : ℕ
  flags : ℕ
  deriving DecidableEq, Repr

/-- Byte `k` of the sector `save_superblock` writes; the key slot of a fresh disk is zero. -/
def Superblock.byte (b : Superblock) (k : ℕ) : UInt8 :=
  if k < 4 then leByte b.magic k
  else if k < 6 then leByte b.formatVersion (k - 4)
  else if k < 8 then leByte b.sectorSize (k - 6)
  else if k < 12 then leByte b.totalSectors (k - 8)
  else if k < 16 then leByte b.dirStart (k - 12)
  else if k < 20 then leByte b.dirSectors (k - 16)
  else if k < 24 then leByte b.maxEntries (k - 20)
  else if k < 26 then leByte b.entrySize (k - 24)
  else if k < 28 then leByte b.clusterSectors (k - 26)
  else if k < 32 then leByte b.fatStart (k - 28)
  else if k < 36 then leByte b.dataStart (k - 32)
  else if k < 40 then leByte b.totalClusters (k - 36)
  else if k < 44 then leByte b.flags (k - 40)
  else 0

def fsSuperSector : ℕ := 0
def fsDirStartSector : ℕ := 1
def fsSuperMagic : ℕ := 0x46647365
def fsFormatVersion : ℕ := 3

/-- The loop of `entries_for_partition`; the cap allows four doublings. -/
def growEntries (partitionSectors : ℕ) : ℕ → ℕ → ℕ
  | 0, entries => entries
  | fuel + 1, entries =>
    if entries * 2 ≤ fsMaxEntriesCap ∧ dirSectorsFor (entries * 2) * 20 ≤ partitionSectors then
      growEntries partitionSectors fuel (entries * 2)
    else entries

def entriesForPartition (partitionSectors : ℕ) : ℕ :=
  growEntries partitionSectors 4 512

def formatPass (maxSectors fatStart clusters : ℕ) : ℕ × ℕ :=
  let dataStart := fatStart + fatSectorsFor clusters
  let usable := if maxSectors > dataStart then maxSectors - dataStart else 0
  let fit := usable / fsClusterSectors
  (if fit < clusters then fit else clusters, dataStart)

section Layout

variable (maxSectors : UInt32) (totalClusters : ℕ)

def formatEntries : ℕ := entriesForPartition maxSectors.toNat

def formatFatStart : ℕ := fsDirStartSector + dirSectorsFor (formatEntries maxSectors)

def formatClusters : ℕ × ℕ :=
  let capped := if totalClusters > fsMaxClustersCap then fsMaxClustersCap else totalClusters
  let first := formatPass maxSectors.toNat (formatFatStart maxSectors) capped
  formatPass maxSectors.toNat (formatFatStart maxSectors) first.1

lemma growEntries_bounds (n : ℕ) : ∀ fuel entries, entries ≤ fsMaxEntriesCap →
    entries ≤ growEntries n fuel entries ∧ growEntries n fuel entries ≤ fsMaxEntriesCap
  | 0, entries, h => ⟨le_rfl, h⟩
  | fuel + 1, entries, h => by
    rw [growEntries]
    split_ifs with hc
    · have ih := growEntries_bounds n fuel (entries * 2) hc.1
      exact ⟨by omega, ih.2⟩
    · exact ⟨le_rfl, h⟩

lemma formatEntries_bounds : 512 ≤ formatEntries maxSectors ∧
    formatEntries maxSectors ≤ fsMaxEntriesCap :=
  growEntries_bounds _ 4 512 (by decide)

lemma formatPass_spec (n f c : ℕ) : (formatPass n f c).1 ≤ c ∧
    (formatPass n f c).2 = f + fatSectorsFor c ∧
    (formatPass n f c).2 + (formatPass n f c).1 * fsClusterSectors ≤ max n (f + fatSectorsFor c)
    := by
  refine ⟨?_, rfl, ?_⟩ <;> simp only [formatPass, fsClusterSectors] <;> split_ifs <;> omega

/-- Where `format_disk` puts the three regions. -/
def formatGeometry : Geometry where
  dirStart := fsDirStartSector
  fatStart := formatFatStart maxSectors
  dataStart := (formatClusters maxSectors totalClusters).2
  maxEntries := formatEntries maxSectors
  totalClusters := (formatClusters maxSectors totalClusters).1
  maxEntries_le := (formatEntries_bounds maxSectors).2
  totalClusters_le := by
    refine (formatPass_spec ..).1.trans ((formatPass_spec ..).1.trans ?_)
    split_ifs <;> omega
  dir_before_fat := le_rfl
  fat_before_data := by
    simp only [formatClusters]
    rw [(formatPass_spec ..).2.1]
    have h := (formatPass_spec maxSectors.toNat (formatFatStart maxSectors)
      (formatPass maxSectors.toNat (formatFatStart maxSectors)
        (if totalClusters > fsMaxClustersCap then fsMaxClustersCap else totalClusters)).1).1
    simp only [fatSectorsFor] at h ⊢
    omega
  data_lt := by
    have hn : maxSectors.toNat < 2 ^ 32 := maxSectors.toNat_lt
    have he := (formatEntries_bounds maxSectors).2
    refine lt_of_le_of_lt (formatPass_spec ..).2.2 (max_lt hn ?_)
    have hc := (formatPass_spec maxSectors.toNat (formatFatStart maxSectors)
      (if totalClusters > fsMaxClustersCap then fsMaxClustersCap else totalClusters)).1
    have hcap : (if totalClusters > fsMaxClustersCap then fsMaxClustersCap else totalClusters) ≤
        fsMaxClustersCap := by split_ifs <;> omega
    simp only [formatFatStart, fatSectorsFor, dirSectorsFor, fsDirStartSector, fsMaxEntriesCap,
      fsMaxClustersCap, entrySize] at *
    omega

/-- The superblock `format_disk` writes. -/
def formatSuperblock : Superblock where
  magic := fsSuperMagic
  formatVersion := fsFormatVersion
  sectorSize := 512
  totalSectors := maxSectors.toNat
  dirStart := fsDirStartSector
  dirSectors := dirSectorsFor (formatEntries maxSectors)
  maxEntries := formatEntries maxSectors
  entrySize := entrySize
  clusterSectors := fsClusterSectors
  fatStart := formatFatStart maxSectors
  dataStart := (formatClusters maxSectors totalClusters).2
  totalClusters := (formatClusters maxSectors totalClusters).1
  flags := 0

end Layout

def freshFs (geo : Geometry) (mounted : Bool) (disk : ℕ → Buf) : Fs where
  geo := geo
  mounted := mounted
  dirTable := fun _ => DirEntry.zero
  fat := fun c => if c < fsFirstDataCluster ∧ c < geo.totalClusters then fatEof else fatFree
  disk := disk

/-- `fs_tables_alloc`, as far as its answer goes. -/
def fsTablesAlloc (entries clusters : ℕ) (kmallocOk : Bool) : Errno :=
  if entries = 0 ∨ clusters = 0 then .inval
  else if entries > fsMaxEntriesCap ∨ clusters > fsMaxClustersCap then .inval
  else if kmallocOk then .ok
  else .nomem

/-- `format_disk`, with `fs_total_clusters` as the caller estimated it. `init_fs` sets
`fs_mounted`. -/
def formatDisk (e : Env) (maxSectors : UInt32) (totalClusters : ℕ) (disk : ℕ → Buf) :
    Errno × Option Fs :=
  let geo := formatGeometry maxSectors totalClusters
  match fsTablesAlloc geo.maxEntries geo.totalClusters e.kmallocOk with
  | .ok =>
    let s := freshFs geo false disk
    let s := (List.range (dirSectorsFor geo.maxEntries)).foldl
      (fun s i => (fsWriteSector e s (geo.dirStart + i) fun _ => 0).2) s
    let s := (fsWriteSector e s fsSuperSector
      fun k => (formatSuperblock maxSectors totalClusters).byte k).2
    (.ok, some (saveDirectoryToDisk e (saveFatToDisk e s)))
  | _ => (.nomem, none)

/-- `init_fs` has read the tables back and set `fs_mounted`. -/
def Fs.mount (s : Fs) : Fs :=
  { s with mounted := true }

end EsdumanOS
