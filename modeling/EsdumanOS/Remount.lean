import EsdumanOS.Mount

/-!
# Formatting and mounting again

What a fresh disk of `n` sectors looks like, and what the next `init_fs` needs of it. The devices
here serve every request.
-/

namespace EsdumanOS

open Lib

/-- The device is there and serves every request for one of its `n` sectors. -/
structure Serves (io : Io) (root n : ℕ) : Prop where
  present : root ≠ 0
  sectorSize : (io.dev root).sectorSize = 512
  sectorCount : (io.dev root).sectorCount = n
  hasRead : (io.dev root).hasRead = true
  hasWrite : (io.dev root).hasWrite = true
  status : ∀ k, io.status k = .ok

/-- A device of `n` sectors that serves every request. -/
def Io.serving (n : ℕ) : Io where
  dev := fun _ => ⟨512, n, true, true⟩
  status := fun _ => .ok
  junk := fun _ _ => 0
  now := 0

lemma Io.serving_serves {n root : ℕ} (h : root ≠ 0) : Serves (Io.serving n) root n :=
  ⟨h, rfl, rfl, rfl, rfl, fun _ => rfl⟩

/-- `disk_region_is_blank` finds nothing on the sectors it looks at. -/
def BlankDisk (disk : ℕ → Sector) : Prop :=
  ∀ s < fsPartStartLba + fsLegacyDirSectors, disk s = fun _ => 0

section Layout

variable (n : ℕ)

/-- `init_fs` reaches `format_disk` on a blank device of this size. -/
def ReachesFormat : Prop :=
  fsPartStartLba + fsDataStartSector < n ∧
    fsFirstDataCluster + 1 ≤ estimateClusters (n - fsPartStartLba)

/-- The partition of `write_mbr`. -/
def freshPartition : Partition :=
  ⟨fsPartStartLba, n - fsPartStartLba, n⟩

/-- The superblock of `format_disk`. -/
def freshSuperblock : Superblock :=
  formatSuperblock (UInt32.ofNat (n - fsPartStartLba)) (estimateClusters (n - fsPartStartLba))

/-- Disjoint regions inside the partition, room for the allocation table, a cluster to allocate. -/
structure SoundLayout : Prop where
  apart : RegionsApart (freshSuperblock n) (freshPartition n).maxSectors
  fatRoom : (freshSuperblock n).totalClusters * 4 ≤
    ((freshSuperblock n).dataStart - (freshSuperblock n).fatStart) * 512
  allocatable : fsFirstDataCluster < (freshSuperblock n).totalClusters

/-- `load_partition` and `load_superblock` accept the disk, with the geometry that was recorded. -/
structure Recorded (disk : ℕ → Sector) : Prop where
  partition : loadPartition n (Sector.bytes (disk 0)) = some (freshPartition n)
  superblock : parseSuperblock (Sector.bytes (disk ((freshPartition n).lba fsSuperSector))) =
    freshSuperblock n
  accepted : loadSuperblock (freshPartition n) (freshSuperblock n) = true

end Layout

section Next

variable {sb : Superblock}

def EmptyTree (p : TableBlocks sb) (mem : ℕ → UInt8) : Prop :=
  ∀ i < sb.maxEntries, entryUsed sb p ⟨mem, fun _ _ => 0, [], false⟩ i = 0

/-- `fs_mounted` is set, with this partition and superblock, and the tree is empty. -/
def MountedEmpty (d : Partition) (p : TableBlocks sb) (r : FsGlobals × Mounting) : Prop :=
  r.1 = ⟨true, d, some ⟨sb, p⟩⟩ ∧ EmptyTree p r.2.mem

/-- None of the bytes that lay behind the allocation table at the format sets `is_used` where the
next mount keeps its directory table. -/
def TailHarmless (p : TableBlocks sb) (mem : ℕ → UInt8) (p' : TableBlocks sb) : Prop :=
  ∀ i < sb.maxEntries,
    p'.fat ≤ p'.dirTable + i * entrySize + 95 →
    p'.dirTable + i * entrySize + 95 < p'.fat + fatSectorsFor sb.totalClusters * 512 →
    clearTables sb p mem (p.fat + (p'.dirTable + i * entrySize + 95 - p'.fat)) = 0

end Next

end EsdumanOS
