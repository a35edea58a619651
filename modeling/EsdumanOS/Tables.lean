import EsdumanOS.Format

/-!
# The tables in kernel memory

What `init_fs` does with the two tables once the superblock is accepted, byte by byte. Memory is one
array, so a transfer past the end of a block reaches whatever lies there; `touched` lists the ranges
read or written through the table pointers.
-/

namespace EsdumanOS

open List

/-- The partition on its device. -/
structure Partition where
  partStart : ℕ
  maxSectors : ℕ
  sectorCount : ℕ

/-- The bounds check of the block layer, for a sector named relative to the partition. -/
def Partition.onDevice (d : Partition) (rel : ℕ) : Prop :=
  u32 (d.partStart + u32 rel) < d.sectorCount

instance (d : Partition) (rel : ℕ) : Decidable (d.onDevice rel) :=
  inferInstanceAs (Decidable (_ < _))

/-- The tests of `load_superblock` on the fields read from the disk. -/
def loadSuperblock (d : Partition) (sb : Superblock) : Bool :=
  decide (sb.magic = fsSuperMagic) && decide (sb.formatVersion = fsFormatVersion) &&
    !(decide (sb.sectorSize ≠ 512) || decide (sb.entrySize ≠ entrySize) ||
      decide (sb.maxEntries > fsMaxEntriesCap) || decide (sb.clusterSectors ≠ fsClusterSectors) ||
      decide (sb.totalClusters = 0) || decide (sb.totalClusters > fsMaxClustersCap) ||
      decide (sb.dirStart = 0) || decide (sb.fatStart ≤ sb.dirStart) ||
      decide (sb.dataStart ≤ sb.fatStart)) &&
    decide (u32 (sb.dataStart + u32 (sb.totalClusters * sb.clusterSectors)) ≤ d.maxSectors)

/-- The bytes of the block `kmalloc(n)` hands out. -/
def kmallocBytes (n : ℕ) : ℕ :=
  (n + 15) / 16 * 16

/-- The two blocks of `fs_tables_alloc`; `kmalloc` hands out disjoint ones. -/
structure TableBlocks (sb : Superblock) where
  dirTable : ℕ
  fat : ℕ
  disjoint : dirTable + kmallocBytes (sb.maxEntries * entrySize) ≤ fat ∨
    fat + kmallocBytes (sb.totalClusters * 4) ≤ dirTable

structure TableMem where
  mem : ℕ → UInt8
  disk : ℕ → Buf
  touched : List (ℕ × ℕ)
  mounted : Bool

section Access

def TableMem.touch (m : TableMem) (a n : ℕ) : TableMem :=
  { m with touched := (a, n) :: m.touched }

/-- `n` bytes are copied to address `a`. -/
def TableMem.store (m : TableMem) (a n : ℕ) (bytes : Buf) : TableMem :=
  { m.touch a n with mem := fun k => if a ≤ k ∧ k < a + n then bytes (k - a) else m.mem k }

/-- A sector is handed to the block layer from address `a` on. -/
def TableMem.send (m : TableMem) (e : Env) (rel a : ℕ) : TableMem :=
  let buf : Buf := fun j => m.mem (a + j)
  match e.writeStatus (u32 rel) buf with
  | .ok => { m.touch a 512 with disk := Function.update m.disk (u32 rel) buf }
  | _ => m

variable (e : Env) (d : Partition) (sb : Superblock) (p : TableBlocks sb)

/-- The zeroing in `fs_tables_alloc`. -/
def zeroTables (m : TableMem) : TableMem :=
  (m.store p.dirTable (sb.maxEntries * entrySize) fun _ => 0).store p.fat (sb.totalClusters * 4)
    fun _ => 0

/-- How much of sector `i` of the directory table is copied. -/
def dirCopySize (i : ℕ) : ℕ :=
  if i * 512 + 512 > entrySize * sb.maxEntries then entrySize * sb.maxEntries % 512 else 512

/-- The loop of `init_fs` over the directory table. A sector that cannot be read ends the mount. -/
def loadDir : List ℕ → TableMem → Bool × TableMem
  | [], m => (true, m)
  | i :: is, m =>
    if d.onDevice (sb.dirStart + i) ∧ e.readFault (u32 (sb.dirStart + i)) = none then
      loadDir is (m.store (p.dirTable + i * 512) (dirCopySize sb i)
        (m.disk (u32 (sb.dirStart + i))))
    else (false, m)

/-- The loop over the allocation table, straight into it. A failed read still clears the buffer. -/
def loadFat : List ℕ → TableMem → Bool × TableMem
  | [], m => (true, m)
  | i :: is, m =>
    if d.onDevice (sb.fatStart + i) then
      match e.readFault (u32 (sb.fatStart + i)) with
      | none => loadFat is (m.store (p.fat + i * 512) 512 (m.disk (u32 (sb.fatStart + i))))
      | some _ => (false, m.store (p.fat + i * 512) 512 fun _ => 0)
    else (false, m)

def reserveClusters (m : TableMem) : TableMem :=
  (range (min fsFirstDataCluster sb.totalClusters)).foldl
    (fun m i => m.store (p.fat + i * 4) 4 fun _ => 255) m

end Access

section Validate

variable (sb : Superblock) (p : TableBlocks sb)

/-- A little-endian field of entry `i`, from byte `off` of the entry on. -/
def entryField (m : TableMem) (i off width : ℕ) : ℕ :=
  (range width).foldr (fun k v => (m.mem (p.dirTable + i * entrySize + off + k)).toNat + 256 * v)
    0

def entryUsed (m : TableMem) (i : ℕ) : ℕ := entryField sb p m i 95 1
def entryType (m : TableMem) (i : ℕ) : ℕ := entryField sb p m i 94 1
def entryIdOf (m : TableMem) (i : ℕ) : ℕ := entryField sb p m i 88 2
def entryParent (m : TableMem) (i : ℕ) : ℕ := entryField sb p m i 90 2
def entryStart (m : TableMem) (i : ℕ) : ℕ := entryField sb p m i 68 4

/-- Entry `i` is looked at. -/
def touchEntry (m : TableMem) (i : ℕ) : TableMem :=
  m.touch (p.dirTable + i * entrySize) entrySize

def walkParents : ℕ → ℕ → TableMem → Bool × TableMem
  | 0, curr, m => (decide (curr = 0), m)
  | hops + 1, curr, m =>
    if curr = 0 then (true, m)
    else if sb.maxEntries ≤ curr then (false, m)
    else if entryUsed sb p m curr = 0 ∨ entryIdOf sb p m curr ≠ curr ∨
        entryType sb p m curr ≠ ftDir then
      (false, touchEntry sb p m curr)
    else walkParents hops (entryParent sb p m curr) (touchEntry sb p m curr)

def validateEntry (m : TableMem) (i : ℕ) : Bool × TableMem :=
  if entryIdOf sb p m i ≠ i then (false, m)
  else if entryType sb p m i ≠ ftRegular ∧ entryType sb p m i ≠ ftDir then (false, m)
  else if entryStart sb p m i ≠ 0 ∧ (entryStart sb p m i < fsFirstDataCluster ∨
      sb.totalClusters ≤ entryStart sb p m i) then (false, m)
  else walkParents sb p sb.maxEntries (entryParent sb p m i) m

def fsValidateDirectoryTable : List ℕ → TableMem → Bool × TableMem
  | [], m => (true, m)
  | i :: is, m =>
    if entryUsed sb p m i = 0 then fsValidateDirectoryTable is (touchEntry sb p m i)
    else
      let r := validateEntry sb p (touchEntry sb p m i) i
      if r.1 then fsValidateDirectoryTable is r.2 else r

end Validate

section Mount

variable (e : Env) (d : Partition) (sb : Superblock) (p : TableBlocks sb)

/-- `save_fat_to_disk`: whole sectors, straight from the table. -/
def saveFat (m : TableMem) : TableMem :=
  (range (fatSectorsFor sb.totalClusters)).foldl
    (fun m i => m.send e (sb.fatStart + i) (p.fat + i * 512)) m

/-- `save_directory_to_disk`: through a zeroed local buffer. -/
def saveDirectory (m : TableMem) : TableMem :=
  (range (dirSectorsFor sb.maxEntries)).foldl
    (fun m i =>
      let buf : Buf := fun j =>
        if j < dirCopySize sb i then m.mem (p.dirTable + i * 512 + j) else 0
      let m := m.touch (p.dirTable + i * 512) (dirCopySize sb i)
      match e.writeStatus (u32 (sb.dirStart + i)) buf with
      | .ok => { m with disk := Function.update m.disk (u32 (sb.dirStart + i)) buf }
      | _ => m) m

/-- `init_fs` from the accepted superblock on. -/
def initFsTables (mem : ℕ → UInt8) (disk : ℕ → Buf) : TableMem :=
  let m : TableMem := ⟨mem, disk, [], false⟩
  if fsTablesAlloc sb.maxEntries sb.totalClusters e.kmallocOk ≠ .ok then m
  else
    let r := loadDir e d sb p (range (dirSectorsFor sb.maxEntries)) (zeroTables sb p m)
    if !r.1 then r.2
    else
      let r := loadFat e d sb p (range (fatSectorsFor sb.totalClusters)) r.2
      if !r.1 then r.2
      else
        let r := fsValidateDirectoryTable sb p (range sb.maxEntries)
          (reserveClusters sb p r.2)
        if !r.1 then r.2
        else saveFat e sb p { r.2 with mounted := true }

/-- A byte of an entry is rewritten, or one outside the two blocks, or the tables are saved. -/
inductive TableOp
  | setDirByte (k : ℕ) (v : UInt8)
  | setFatByte (k : ℕ) (v : UInt8)
  | other (a : ℕ) (v : UInt8)
  | saveFat
  | saveDirectory

def TableBlocks.Owns {sb : Superblock} (p : TableBlocks sb) (a : ℕ) : Prop :=
  (p.dirTable ≤ a ∧ a < p.dirTable + kmallocBytes (sb.maxEntries * entrySize)) ∨
    (p.fat ≤ a ∧ a < p.fat + kmallocBytes (sb.totalClusters * 4))

instance {sb : Superblock} (p : TableBlocks sb) (a : ℕ) : Decidable (p.Owns a) :=
  inferInstanceAs (Decidable (_ ∨ _))

def TableMem.setByte (m : TableMem) (a : ℕ) (v : UInt8) : TableMem :=
  { m with mem := Function.update m.mem a v }

def tableStep (m : TableMem) (op : Env × TableOp) : TableMem :=
  if !m.mounted then m
  else
    match op.2 with
    | .setDirByte k v =>
      if k < sb.maxEntries * entrySize then m.setByte (p.dirTable + k) v else m
    | .setFatByte k v => if k < sb.totalClusters * 4 then m.setByte (p.fat + k) v else m
    | .other a v => if p.Owns a then m else m.setByte a v
    | .saveFat => EsdumanOS.saveFat op.1 sb p m
    | .saveDirectory => EsdumanOS.saveDirectory op.1 sb p m

def tableRun (m : TableMem) (ops : List (Env × TableOp)) : TableMem :=
  ops.foldl (tableStep sb p) m

/-- The bytes `save_fat_to_disk` hands over for sector `i`. -/
def fatSector (m : TableMem) (i : ℕ) : Buf :=
  fun j => m.mem (p.fat + i * 512 + j)

/-- No transfer of the mount or of a later save leaves the blocks, and what is written of the
allocation table depends on its entries. -/
structure TablesFit (d : Partition) (sb : Superblock) : Prop where
  inside : ∀ (e : Env) (p : TableBlocks sb) (mem : ℕ → UInt8) (disk : ℕ → Buf)
    (ops : List (Env × TableOp)),
    ∀ r ∈ (tableRun sb p (initFsTables e d sb p mem disk) ops).touched,
      ∀ k < r.2, p.Owns (r.1 + k)
  entriesOnly : ∀ (e e' : Env) (p p' : TableBlocks sb) (mem mem' : ℕ → UInt8)
    (disk disk' : ℕ → Buf) (ops ops' : List (Env × TableOp)),
    let m := tableRun sb p (initFsTables e d sb p mem disk) ops
    let m' := tableRun sb p' (initFsTables e' d sb p' mem' disk') ops'
    m.mounted = true → m'.mounted = true →
    (∀ k < sb.totalClusters * 4, m.mem (p.fat + k) = m'.mem (p'.fat + k)) →
    ∀ i < fatSectorsFor sb.totalClusters, ∀ j < 512, fatSector sb p m i j = fatSector sb p' m' i j

end Mount

end EsdumanOS
