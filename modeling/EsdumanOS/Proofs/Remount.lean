import EsdumanOS.Proofs.Mount
import EsdumanOS.Proofs.Served
import EsdumanOS.Proofs.FreshLayout

/-!
# What is formatted can be mounted

`format_disk` leaves partition table, superblock and both tables on the device (`Formatted`). A
later mount reads the bytes that lay behind the allocation table at the time: the tree is empty just
when none of them lands on an `is_used` field.
-/

namespace EsdumanOS

open Lib List Function Sector Io Settled

variable {disk0 : ℕ → ℕ → Sector} {io : Io} {root n : ℕ} {V : ℕ → Sector} {m : Mounting}
  {bytes : ℕ → Buf}

section Memory

variable {sb : Superblock} {p : TableBlocks sb} {mem : ℕ → UInt8} {a x : ℕ}

lemma storeBytes_same {k : ℕ} {bytes : Buf} (h : ∀ j < k, bytes j = mem (a + j)) :
    storeBytes mem a k bytes = mem := by
  funext x
  unfold storeBytes
  split_ifs with hx
  · rw [h (x - a) (by omega), Nat.add_sub_cancel' hx.1]
  · rfl

lemma foldl_store_same {size : ℕ → ℕ} :
    ∀ (is : List ℕ), (∀ i ∈ is, ∀ j < size i, bytes i j = mem (a + i * 512 + j)) →
      is.foldl (fun mem i => storeBytes mem (a + i * 512) (size i) (bytes i)) mem = mem
  | [], _ => rfl
  | i :: is, h => by
    rw [foldl_cons, storeBytes_same (h i mem_cons_self)]
    exact foldl_store_same is fun j hj => h j (mem_cons_of_mem _ hj)

lemma foldl_store_zero {size : ℕ → ℕ} :
    ∀ (is : List ℕ) {mem : ℕ → UInt8}, (∀ i ∈ is, ∀ j < size i, bytes i j = 0) → mem x = 0 →
      is.foldl (fun mem i => storeBytes mem (a + i * 512) (size i) (bytes i)) mem x = 0
  | [], _, _, hx => hx
  | i :: is, mem, h, hx => by
    rw [foldl_cons]
    refine foldl_store_zero is (fun j hj => h j (mem_cons_of_mem _ hj)) ?_
    unfold storeBytes
    split_ifs with hi
    · exact h i mem_cons_self (x - (a + i * 512)) (by omega)
    · exact hx

lemma foldl_store_sectors : ∀ k,
    (range k).foldl (fun mem i => storeBytes mem (a + i * 512) 512 (bytes i)) mem x =
      if a ≤ x ∧ x < a + k * 512 then bytes ((x - a) / 512) ((x - a) % 512) else mem x
  | 0 => by
    rw [if_neg (by omega)]
    rfl
  | k + 1 => by
    rw [range_succ, foldl_append, foldl_cons, foldl_nil, storeBytes, foldl_store_sectors k]
    by_cases hl : a + k * 512 ≤ x ∧ x < a + k * 512 + 512
    · rw [if_pos hl, if_pos (by omega), show (x - a) / 512 = k by omega,
        show (x - a) % 512 = x - (a + k * 512) by omega]
    · rw [if_neg hl]
      exact if_congr (by omega) rfl rfl

lemma markReserved_apply : markReserved sb p mem x =
    if p.fat ≤ x ∧ x < p.fat + min fsFirstDataCluster sb.totalClusters * 4 then 255 else mem x := by
  unfold markReserved
  generalize min fsFirstDataCluster sb.totalClusters = c
  induction c with
  | zero =>
    rw [if_neg (by omega)]
    rfl
  | succ c ih =>
    rw [range_succ, foldl_append, foldl_cons, foldl_nil, storeBytes, ih]
    split_ifs <;> first | rfl | omega

lemma markReserved_idem : markReserved sb p (markReserved sb p mem) = markReserved sb p mem := by
  funext x
  rw [markReserved_apply]
  split_ifs with hx
  · rw [markReserved_apply, if_pos hx]
  · rfl

section

variable (hx : p.dirTable ≤ x ∧ x < p.dirTable + sb.maxEntries * entrySize)
include hx

lemma clearTables_dir : clearTables sb p mem x = 0 := by
  unfold clearTables storeBytes
  split_ifs <;> rfl

lemma TableBlocks.dir_apart : x < p.fat ∨ p.fat + sb.totalClusters * 4 ≤ x := by
  have hd := le_kmallocBytes (sb.maxEntries * entrySize)
  have hf := le_kmallocBytes (sb.totalClusters * 4)
  rcases p.disjoint with h | h <;> omega

lemma markReserved_dir : markReserved sb p mem x = mem x := by
  rw [markReserved_apply, if_neg]
  have := TableBlocks.dir_apart hx
  omega

def freshTables (p : TableBlocks sb) (mem : ℕ → UInt8) : ℕ → UInt8 :=
  markReserved sb p (clearTables sb p mem)

lemma freshTables_dir : freshTables p mem x = 0 := by
  rw [freshTables, markReserved_dir hx, clearTables_dir hx]

end

lemma usedByte_dir {i : ℕ} (hi : i < sb.maxEntries) :
    p.dirTable ≤ p.dirTable + i * entrySize + 95 ∧
      p.dirTable + i * entrySize + 95 < p.dirTable + sb.maxEntries * entrySize := by
  simp only [entrySize]
  omega

lemma entryUsed_eq_zero {i : ℕ} : entryUsed sb p ⟨mem, fun _ _ => 0, [], false⟩ i = 0 ↔
    mem (p.dirTable + i * entrySize + 95) = 0 := by
  simp [entryUsed, entryField, ← UInt8.toNat_inj]

lemma EmptyTree.accepted (h : EmptyTree p mem) : tableAccepted sb p mem = true :=
  (touchEntries_eq (range sb.maxEntries) fun i hi => h i (mem_range.1 hi)).1

lemma freshTables_empty : EmptyTree p (freshTables p mem) := fun _ hi =>
  entryUsed_eq_zero.2 (freshTables_dir (usedByte_dir hi))

end Memory

section Transfers

variable {d : Partition} {sb : Superblock} {p : TableBlocks sb} {s : ℕ}

lemma Settled.mount_read (h : Settled disk0 root n V m.cache) (hio : Serves io root n)
    (hs : s < n) (buf : Buf) : (m.read io root s buf).1 = .ok ∧
      (m.read io root s buf).2.1 = Sector.bytes (V s) ∧
      Settled disk0 root n V (m.read io root s buf).2.2.cache := by
  obtain ⟨hok, hd, hc⟩ := h.read hio hs (ofBuf buf)
  refine ⟨hok, ?_, hc⟩
  unfold Mounting.read
  dsimp only
  rw [hd]
  rfl

lemma Settled.blank (hio : Serves io root n) : ∀ (ss : List ℕ) {m : Mounting},
    Settled disk0 root n V m.cache → (∀ s ∈ ss, s < n ∧ V s = fun _ => 0) →
    (diskRegionIsBlank io root ss m).1 = some true ∧
      Settled disk0 root n V (diskRegionIsBlank io root ss m).2.cache ∧
      (diskRegionIsBlank io root ss m).2.mem = m.mem
  | [], _, h, _ => ⟨rfl, h, rfl⟩
  | s :: ss, m, h, hs => by
    obtain ⟨hlt, hz⟩ := hs s mem_cons_self
    obtain ⟨hok, hd, hc⟩ := h.mount_read hio hlt fun _ => 0
    have ha : (range 512).all (fun k => decide (bytes (V s) k = 0)) = true := by
      simp [hz, bytes]
    rw [diskRegionIsBlank]
    simp only [hok, hd, ha, ne_eq, not_true_eq_false, if_false, if_true]
    exact blank hio ss hc fun t ht => hs t (mem_cons_of_mem _ ht)

lemma settled_reader (hio : Serves io root n) :
    TableReader io root (· < n) V (Settled disk0 root n V ·.cache) where
  tidy h := h.inv.dirtyValid
  read buf hs h := (h.mount_read hio hs buf).2.2
  data buf hs h _ := (h.mount_read hio hs buf).2.1
  mem _ h := h

lemma Settled.fat_rewrite (hio : Serves io root n) (h : Settled disk0 root n V m.cache)
    (hf : ∀ i < fatSectorsFor sb.totalClusters, d.lba (sb.fatStart + i) < n ∧
      V (d.lba (sb.fatStart + i)) = ofBuf fun k => m.mem (p.fat + i * 512 + k)) :
    Settled disk0 root n V (writeFatTable io root d sb p m).cache := by
  unfold writeFatTable
  have hs : ∀ i ∈ range (fatSectorsFor sb.totalClusters), d.lba (sb.fatStart + i) < n ∧
      V (d.lba (sb.fatStart + i)) = ofBuf fun k => m.mem (p.fat + i * 512 + k) :=
    fun i hi => hf i (mem_range.1 hi)
  generalize range (fatSectorsFor sb.totalClusters) = is at hs ⊢
  clear hf
  induction is generalizing m with
  | nil => exact h
  | cons i is ih =>
    obtain ⟨hlt, hsame⟩ := hs i mem_cons_self
    exact ih (h.rewrite hio hlt hsame.symm) fun j hj => hs j (mem_cons_of_mem _ hj)

def putRegion (V : ℕ → Sector) (first k : ℕ) (c : ℕ → Buf) : ℕ → Sector :=
  fun s => if first ≤ s ∧ s < first + k then ofBuf (c (s - first)) else V s

lemma putRegion_at {first k i : ℕ} {c : ℕ → Buf} (hi : i < k) :
    putRegion V first k c (first + i) = ofBuf (c i) := by
  rw [putRegion, if_pos (by omega), Nat.add_sub_cancel_left]

lemma putRegion_off {first k : ℕ} {c : ℕ → Buf} (hs : s < first ∨ first + k ≤ s) :
    putRegion V first k c s = V s :=
  if_neg (by omega)

lemma Cached.write_region (hio : Serves io root n) (h : Cached disk0 root n V m.cache)
    {lba : ℕ → ℕ} {first : ℕ} (c : (ℕ → UInt8) → ℕ → Buf) : ∀ k, first + k ≤ n →
    (∀ i < k, lba i = first + i) →
    Cached disk0 root n (putRegion V first k (c m.mem)) ((range k).foldl
      (fun m i => (m.write io root (lba i) (c m.mem i)).2) m).cache ∧
    ((range k).foldl (fun m i => (m.write io root (lba i) (c m.mem i)).2) m).mem = m.mem
  | 0, _, _ => by
    have hno : putRegion V first 0 (c m.mem) = V := funext fun s => putRegion_off (by omega)
    rw [hno]
    exact ⟨h, rfl⟩
  | k + 1, hk, hlb => by
    obtain ⟨hc, hmem⟩ := Cached.write_region hio h c k (by omega) fun i hi => hlb i (by omega)
    rw [range_succ, foldl_append, foldl_cons, foldl_nil]
    have hl : lba k = first + k := hlb k (by omega)
    obtain ⟨-, hc'⟩ := hc.write hio (s := first + k) (by omega) (ofBuf (c m.mem k))
    have hp : update (putRegion V first k (c m.mem)) (first + k)
        (ofBuf (c m.mem k)) = putRegion V first (k + 1) (c m.mem) := by
      funext s
      by_cases hs : s = first + k
      · subst hs
        rw [update_self, putRegion_at (by omega)]
      · rw [update_of_ne hs]
        exact if_congr (by omega) rfl rfl
    rw [hp] at hc'
    refine ⟨?_, hmem⟩
    rw [hmem, hl]
    exact hc'

end Transfers

section Load

variable {d : Partition} {sb : Superblock} {p : TableBlocks sb}

structure TablesInside (d : Partition) (sb : Superblock) (n : ℕ) : Prop where
  dir : ∀ i < dirSectorsFor sb.maxEntries, d.lba (sb.dirStart + i) < n
  fat : ∀ i < fatSectorsFor sb.totalClusters, d.lba (sb.fatStart + i) < n

lemma loadTables_settled (hio : Serves io root n) (h : Settled disk0 root n V m.cache)
    (hin : TablesInside d sb n) :
    (loadTables io root d sb p m).1 = (if tableAccepted sb p (tablesRead V d p m.mem) = true then
      ⟨true, d, some ⟨sb, p⟩⟩ else ⟨false, d, none⟩) ∧
    (loadTables io root d sb p m).2.mem = tablesRead V d p m.mem ∧
    ((∀ i < fatSectorsFor sb.totalClusters, V (d.lba (sb.fatStart + i)) =
        .ofBuf fun k => tablesRead V d p m.mem (p.fat + i * 512 + k)) →
      Settled disk0 root n V (loadTables io root d sb p m).2.cache) := by
  have hr := @settled_reader disk0 io root n V hio
  have hd := fun i hi => hin.dir i (mem_range.1 hi)
  have hf := fun i hi => hin.fat i (mem_range.1 hi)
  have hse := fun {m : Mounting} {lba : ℕ} (buf : Buf) (hs : lba < n)
    (h : Settled disk0 root n V m.cache) => (h.mount_read hio hs buf).1
  obtain ⟨hsd, hsf, hal⟩ := @TableReader.tables m io root d sb p _ _ _ hr hd hf h
  have hdir : (readDirTable io root d sb p (range (dirSectorsFor sb.maxEntries)) m).1 = true := by
    rw [readDirTable_eq]
    exact hr.table_ok hse _ hd h
  have hfa : (readFatTable io root d sb p (range (fatSectorsFor sb.totalClusters))
      (readDirTable io root d sb p (range (dirSectorsFor sb.maxEntries)) m).2).1 = true := by
    rw [readFatTable_eq]
    exact hr.table_ok hse _ hf hsd
  obtain ⟨-, -, hre⟩ := hal hdir hfa
  unfold loadTables
  simp only [hdir, hfa, Bool.not_true, Bool.false_eq_true, if_false]
  rw [hre]
  by_cases ha : tableAccepted sb p (tablesRead V d p m.mem) = true
  · simp only [ha, Bool.not_true, Bool.false_eq_true, if_false, if_true]
    exact ⟨trivial, writeFatTable_mem, fun hsame => fat_rewrite hio hsf
      fun i hi => ⟨hin.fat i hi, hsame i hi⟩⟩
  · simp only [ha, Bool.not_false, if_true, Bool.false_eq_true, if_false]
    exact ⟨trivial, trivial, fun _ => hsf⟩

end Load

section Fresh

variable {p p' : TableBlocks (freshSuperblock n)} {mem mem' : ℕ → UInt8}

structure Formatted (n : ℕ) (p : TableBlocks (freshSuperblock n)) (mem : ℕ → UInt8)
    (V : ℕ → Sector) : Prop where
  mbr : V 0 = mbrSector n
  super : V ((freshPartition n).lba fsSuperSector) =
    ofBuf fun k => (freshSuperblock n).byte k
  dir : ∀ i < freshDirSectors n, V ((freshPartition n).lba ((freshSuperblock n).dirStart + i)) =
    ofBuf fun k => if k < dirCopySize (freshSuperblock n) i then
      freshTables p mem (p.dirTable + i * 512 + k) else 0
  fat : ∀ i < freshFatSectors n, V ((freshPartition n).lba ((freshSuperblock n).fatStart + i)) =
    ofBuf fun k => freshTables p mem (p.fat + i * 512 + k)

lemma fresh_lba (hn : n < 2 ^ 32) (h : ReachesFormat n) :
    (freshPartition n).lba fsSuperSector = 64 ∧
    (∀ i < freshDirSectors n,
      (freshPartition n).lba ((freshSuperblock n).dirStart + i) = 65 + i) ∧
    (∀ i < freshFatSectors n, (freshPartition n).lba ((freshSuperblock n).fatStart + i) =
      65 + freshDirSectors n + i) ∧
    65 + freshDirSectors n + freshFatSectors n ≤ n := by
  obtain ⟨-, -, ⟨hc, -⟩, hf, hd, he⟩ := freshFigures hn h
  have h64 : fsPartStartLba = 64 := rfl
  have hdir : (freshSuperblock n).dirStart = 1 := rfl
  refine ⟨?_, fun i hi => ?_, fun i hi => ?_, by omega⟩
  · rfl
  · rw [freshPartition_lba hn (by omega)]
    omega
  · rw [freshPartition_lba hn (by omega)]
    omega

lemma fresh_inside (hn : n < 2 ^ 32) (h : ReachesFormat n) :
    TablesInside (freshPartition n) (freshSuperblock n) n := by
  obtain ⟨-, hdir, hf, hle⟩ := fresh_lba hn h
  refine ⟨fun i (hi : i < freshDirSectors n) => ?_, fun i (hi : i < freshFatSectors n) => ?_⟩
  · rw [hdir i hi]
    omega
  · rw [hf i hi]
    omega

section Writes

variable (hn : n < 2 ^ 32) (hsize : ReachesFormat n) (hio : Serves io root n)
  (h : Cached disk0 root n V m.cache)

include hn hsize hio h

lemma clearDirSectors_cached :
    Cached disk0 root n (putRegion V 65 (freshDirSectors n) fun _ _ => 0)
      (clearDirSectors io root (freshPartition n) (freshSuperblock n) m).cache ∧
    (clearDirSectors io root (freshPartition n) (freshSuperblock n) m).mem = m.mem := by
  obtain ⟨-, hdir, -, hle⟩ := fresh_lba hn hsize
  exact h.write_region hio (fun _ _ _ => 0) _ (by omega) hdir

lemma writeSuper_cached :
    Cached disk0 root n (update V 64 (ofBuf fun k => (freshSuperblock n).byte k))
      (m.write io root ((freshPartition n).lba fsSuperSector)
        fun k => (freshSuperblock n).byte k).2.cache := by
  obtain ⟨hs, -, -, hle⟩ := fresh_lba hn hsize
  exact (h.write hio (by omega) _).2

lemma writeFatTable_cached (p : TableBlocks (freshSuperblock n)) :
    Cached disk0 root n (putRegion V (65 + freshDirSectors n) (freshFatSectors n) fun i k =>
        m.mem (p.fat + i * 512 + k))
      (writeFatTable io root (freshPartition n) (freshSuperblock n) p m).cache := by
  obtain ⟨-, -, hf, hle⟩ := fresh_lba hn hsize
  exact (h.write_region hio (fun mem i k => mem (p.fat + i * 512 + k)) _ (by omega) hf).1

lemma writeDirTable_cached (p : TableBlocks (freshSuperblock n)) :
    Cached disk0 root n (putRegion V 65 (freshDirSectors n) fun i k =>
        if k < dirCopySize (freshSuperblock n) i then m.mem (p.dirTable + i * 512 + k) else 0)
      (writeDirTable io root (freshPartition n) (freshSuperblock n) p m).cache ∧
    (writeDirTable io root (freshPartition n) (freshSuperblock n) p m).mem = m.mem := by
  obtain ⟨-, hdir, -, hle⟩ := fresh_lba hn hsize
  exact h.write_region hio (fun mem i k => if k < dirCopySize (freshSuperblock n) i then
    mem (p.dirTable + i * 512 + k) else 0) _ (by omega) hdir

lemma writeFresh_settled (hm : V 0 = mbrSector n) (p : TableBlocks (freshSuperblock n)) :
    ∃ V', Formatted n p m.mem V' ∧ Settled disk0 root n V'
        (writeFresh io root (freshPartition n) (freshSuperblock n) p m).cache ∧
      (writeFresh io root (freshPartition n) (freshSuperblock n) p m).mem =
        freshTables p m.mem := by
  obtain ⟨hs, hdir, hf, hle⟩ := fresh_lba hn hsize
  obtain ⟨m0, hm0⟩ : ∃ m0 : Mounting, m0 = { m with mem := freshTables p m.mem } := ⟨_, rfl⟩
  have hc0 : Cached disk0 root n V m0.cache := by rw [hm0]; exact h
  have hmem0 : m0.mem = freshTables p m.mem := by rw [hm0]
  obtain ⟨hc1, hmem1⟩ := clearDirSectors_cached hn hsize hio hc0
  have hc := writeSuper_cached hn hsize hio hc1
  obtain ⟨m2, hm2⟩ : ∃ m2, m2 = ((clearDirSectors io root (freshPartition n) (freshSuperblock n)
    m0).write io root ((freshPartition n).lba fsSuperSector)
      fun k => (freshSuperblock n).byte k).2 := ⟨_, rfl⟩
  rw [← hm2] at hc
  have hmem2 : m2.mem = freshTables p m.mem := by
    rw [hm2]
    exact hmem1.trans hmem0
  have hc3 := writeFatTable_cached hn hsize hio hc p
  obtain ⟨hc4, hme⟩ := writeDirTable_cached hn hsize hio hc3 p
  rw [writeFatTable_mem, hmem2] at hc4 hme
  have hfresh : writeFresh io root (freshPartition n) (freshSuperblock n) p m =
      let m' := writeDirTable io root (freshPartition n) (freshSuperblock n) p
        (writeFatTable io root (freshPartition n) (freshSuperblock n) p m2)
      { m' with cache := (bcacheFlush io m'.cache).2 } := by
    rw [hm2, hm0]
    rfl
  rw [hfresh]
  dsimp only
  refine ⟨_, ⟨?_, ?_, fun i hi => ?_, fun i hi => ?_⟩, hc4.flush hio, hme⟩
  · rw [putRegion_off (.inl (by omega)), putRegion_off (.inl (by omega)),
      update_of_ne (by omega), putRegion_off (.inl (by omega)), hm]
  · rw [hs, putRegion_off (.inl (by omega)), putRegion_off (.inl (by omega)), update_self]
  · rw [hdir i hi, putRegion_at hi]
  · rw [hf i hi, putRegion_off (.inr (by omega)), putRegion_at hi]

end Writes

section Mounts

variable {alloc : ∀ sb : Superblock, Option (TableBlocks sb)} {b : Bcache}

lemma Formatted.read_back (h : Formatted n p mem V) :
    tablesRead V (freshPartition n) p (freshTables p mem) = freshTables p mem := by
  unfold tablesRead
  dsimp only
  rw [foldl_store_same (range (dirSectorsFor _)), foldl_store_same]
  · exact markReserved_idem
  · intro i hi j hj
    rw [h.fat i (mem_range.1 hi), bytes_ofBuf hj]
  · intro i hi j hj
    have hj' := hj.trans_le (dirCopySize_le_sector i)
    rw [h.dir i (mem_range.1 hi), bytes_ofBuf hj', if_pos hj]

lemma Formatted.dir_byte (h : Formatted n p mem V) {x : ℕ}
    (hx : p'.dirTable ≤ x ∧ x < p'.dirTable + (freshSuperblock n).maxEntries * entrySize) :
    tablesRead V (freshPartition n) p' (clearTables (freshSuperblock n) p' mem') x =
      if p'.fat ≤ x ∧ x < p'.fat + freshFatSectors n * 512 then
        clearTables (freshSuperblock n) p mem (p.fat + (x - p'.fat))
      else 0 := by
  have ha := TableBlocks.dir_apart hx
  unfold tablesRead
  rw [markReserved_dir hx, foldl_store_sectors]
  split_ifs with hin
  · have hs : (x - p'.fat) / 512 < freshFatSectors n := by
      unfold freshFatSectors
      omega
    rw [h.fat _ hs, bytes_ofBuf (by omega), freshTables, markReserved_apply, if_neg,
      show p.fat + (x - p'.fat) / 512 * 512 + (x - p'.fat) % 512 = p.fat + (x - p'.fat) by omega]
    omega
  · refine foldl_store_zero _ (fun i hi j hj => ?_) (clearTables_dir hx)
    have hi := mem_range.1 hi
    have he := @dirCopySize_le (freshSuperblock n) i hi
    rw [h.dir i hi, bytes_ofBuf (hj.trans_le (dirCopySize_le_sector i)), if_pos hj]
    exact freshTables_dir ⟨by omega, by omega⟩

lemma Formatted.empty_iff (h : Formatted n p mem V) (mem' : ℕ → UInt8) :
    EmptyTree p' (tablesRead V (freshPartition n) p' (clearTables (freshSuperblock n) p' mem')) ↔
      TailHarmless p mem p' := by
  refine forall_congr' fun i => forall_congr' fun hi => ?_
  rw [entryUsed_eq_zero, h.dir_byte (usedByte_dir hi)]
  constructor
  · intro hz h1 h2
    rwa [if_pos ⟨h1, h2⟩] at hz
  · intro hz
    split_ifs with hin
    · exact hz hin.1 hin.2
    · rfl

lemma leField_zero (w : ℕ) : ∀ off, leField (Sector.bytes fun _ => 0) off w = 0 := by
  induction w with
  | zero => exact fun _ => rfl
  | succ w ih =>
    intro off
    rw [leField, ih]
    simp [Sector.bytes]

lemma diskSectors_eq (hio : Serves io root n) : diskSectors io root = n := by
  rw [diskSectors, if_neg hio.present, hio.sectorCount]

section Served

variable (hn : n < 2 ^ 32) (hsize : ReachesFormat n)
include hn hsize

lemma tablesAlloc_fresh :
    tablesAlloc alloc (freshSuperblock n) = alloc (freshSuperblock n) := by
  obtain ⟨-, ⟨he, he'⟩, ⟨hc, hc'⟩, -⟩ := freshFigures hn hsize
  have hok : fsTablesAlloc (freshSuperblock n).maxEntries (freshSuperblock n).totalClusters true =
      .ok := by
    unfold fsTablesAlloc
    rw [if_neg (by omega), if_neg (by omega)]
    rfl
  rw [tablesAlloc, if_pos hok]

lemma Formatted.recorded (h : Formatted n p mem V) : Recorded n V := by
  refine ⟨?_, ?_, freshSuperblock_accepted hn hsize⟩
  · rw [h.mbr]
    exact loadPartition_mbrSector hn hsize.1
  · rw [h.super]
    exact freshSuperblock_parsed hn hsize

variable (hio : Serves io root n)
include hio

/-- After the format the tables are read back, and the allocation table is written as it is. -/
lemma formatAndMount_settled (h : Cached disk0 root n V m.cache)
    (halloc : alloc (freshSuperblock n) = some p) : ∃ V', Formatted n p m.mem V' ∧
      Settled disk0 root n V' (formatAndMount io root alloc n m).2.cache := by
  have hp : 264 < n := hsize.1
  obtain ⟨hok, hc⟩ := h.write hio (s := 0) (by omega) (mbrSector n)
  obtain ⟨r, hr⟩ : ∃ r, r = m.write io root 0 (bytes (mbrSector n)) := ⟨_, rfl⟩
  have hw : r.1 = .ok ∧ r.2.mem = m.mem ∧
      Cached disk0 root n (update V 0 (mbrSector n)) r.2.cache := by
    rw [hr, Mounting.write, ofBuf_bytes]
    exact ⟨hok, rfl, hc⟩
  obtain ⟨V', hV', hs, hmem⟩ := writeFresh_settled hn hsize hio hw.2.2
    (update_self 0 (mbrSector n) V) p
  have heq : formatAndMount io root alloc n m = loadTables io root (freshPartition n)
      (freshSuperblock n) p (writeFresh io root (freshPartition n) (freshSuperblock n) p r.2) := by
    have ht : tablesAlloc alloc (freshSuperblock n) = some p :=
      (tablesAlloc_fresh hn hsize).trans halloc
    unfold formatAndMount
    dsimp only
    rw [if_neg (not_lt.2 hsize.2), ← hr, if_neg (not_not.2 hw.1)]
    split
    · rename_i hno
      exact absurd (ht.symm.trans hno) (by simp)
    · rename_i p1 hp1
      obtain rfl : p = p1 := Option.some.inj (ht.symm.trans hp1)
      rfl
  rw [hw.2.1] at hV' hmem
  obtain ⟨-, -, hk⟩ := @loadTables_settled disk0 io root n V' _ _ _ p hio hs (fresh_inside hn hsize)
  rw [hmem, hV'.read_back] at hk
  rw [heq]
  exact ⟨V', hV', hk hV'.fat⟩

lemma mountUnpartitioned_settled (h : Settled disk0 root n V m.cache) (hb : BlankDisk V)
    (halloc : alloc (freshSuperblock n) = some p) : ∃ V', Formatted n p m.mem V' ∧
      Settled disk0 root n V' (mountUnpartitioned io root alloc n m).2.cache := by
  have hp : 264 < n := hsize.1
  obtain ⟨hok, hd, hc⟩ := h.mount_read hio (s := 0) (by omega) fun _ => 0
  obtain ⟨ht, hc', hmem⟩ := @blank disk0 io root n V hio
    (range (fsPartStartLba + fsLegacyDirSectors)) _ hc fun s hs => by
      have hlt : s < 200 := mem_range.1 hs
      exact ⟨by omega, hb s hlt⟩
  have hV := formatAndMount_settled hn hsize hio hc'.toCached halloc
  have hm : ¬ leField (bytes (V 0)) 0 4 = fsSuperMagic := by
    rw [hb 0 (by decide), leField_zero]
    decide
  unfold mountUnpartitioned
  simp only [hok, hd, ht, hm, ne_eq, not_true_eq_false, if_false, if_true]
  rw [hmem] at hV
  exact hV

lemma initFs_blank (alloc : ∀ sb : Superblock, Option (TableBlocks sb)) (b : Bcache)
    (mem : ℕ → UInt8) (hb : BlankDisk (b.disk root))
    (halloc : alloc (freshSuperblock n) = some p) :
    Formatted n p mem ((initFs io root alloc b mem).2.cache.disk root) := by
  have hp : ¬ n ≤ fsPartStartLba + fsDataStartSector := not_le.2 hsize.1
  have hno : loadPartition n (bytes (b.disk root 0)) = none := by
    rw [hb 0 (by decide), loadPartition, leField_zero, if_pos (by decide)]
  obtain ⟨hok, hd, hc⟩ := mount_read (m := ⟨b.reset, mem, []⟩) (reset_settled b root n)
    hio (s := 0) (by omega) fun _ => 0
  obtain ⟨V, hV, hs⟩ := mountUnpartitioned_settled hn hsize hio hc hb halloc
  have heq : initFs io root alloc b mem = mountUnpartitioned io root alloc n
      (Mounting.read io root ⟨b.reset, mem, []⟩ 0 fun _ => 0).2.2 := by
    unfold initFs
    simp only [diskSectors_eq hio, hok, hd, hno, hp, ne_eq, not_true_eq_false, if_false]
  rw [heq, funext hs.disk]
  exact hV

/-- A mount of a formatted disk is decided by the tables it reads. -/
lemma initFs_formatted (alloc : ∀ sb : Superblock, Option (TableBlocks sb)) (mem' : ℕ → UInt8)
    (h : Formatted n p mem (b.disk root)) (halloc : alloc (freshSuperblock n) = some p') :
    let tables := tablesRead (b.disk root) (freshPartition n) p'
      (clearTables (freshSuperblock n) p' mem')
    (initFs io root alloc b mem').1 = (if tableAccepted (freshSuperblock n) p' tables = true then
        ⟨true, freshPartition n, some ⟨freshSuperblock n, p'⟩⟩
      else ⟨false, freshPartition n, none⟩) ∧
      (initFs io root alloc b mem').2.mem = tables := by
  obtain ⟨hpa, hp, ha⟩ := h.recorded hn hsize
  have hpo : ¬ n ≤ fsPartStartLba + fsDataStartSector := not_le.2 hsize.1
  have ht : tablesAlloc alloc (freshSuperblock n) = some p' :=
    (tablesAlloc_fresh hn hsize).trans halloc
  obtain ⟨hok, hd, hc⟩ := mount_read (m := ⟨b.reset, mem', []⟩) (reset_settled b root n)
    hio (s := 0) (by omega) fun _ => 0
  obtain ⟨m1, hm⟩ : ∃ m1, m1 = (Mounting.read io root ⟨b.reset, mem', []⟩ 0 fun _ => 0).2.2 :=
    ⟨_, rfl⟩
  have hme : m1.mem = mem' := by
    rw [hm]
    rfl
  rw [← hm] at hc
  have hs : (freshPartition n).lba fsSuperSector < n := by
    rw [(fresh_lba hn hsize).1]
    simp only [fsPartStartLba, fsDataStartSector] at hpo
    omega
  obtain ⟨ho', hd', hc'⟩ := hc.mount_read hio hs fun _ => 0
  have heq : initFs io root alloc b mem' = loadTables io root (freshPartition n) (freshSuperblock n)
      p' { (m1.read io root ((freshPartition n).lba fsSuperSector) fun _ => 0).2.2 with
        mem := clearTables (freshSuperblock n) p' mem' } := by
    unfold initFs
    simp only [diskSectors_eq hio, hok, hd, hpa, hpo, ne_eq, not_true_eq_false, if_false, ← hm]
    unfold mountPartition
    rw [if_neg (not_not.2 ho'), hd', hp, if_neg (by rw [ha]; decide), ht, ← hme]
    rfl
  obtain ⟨hload, hmem, -⟩ := @loadTables_settled b.disk io root n (b.disk root)
    { (m1.read io root ((freshPartition n).lba fsSuperSector) fun _ => 0).2.2 with
      mem := clearTables (freshSuperblock n) p' mem' } _ _ p' hio hc' (fresh_inside hn hsize)
  rw [heq]
  exact ⟨hload, hmem⟩

lemma mountedEmpty_iff (alloc : ∀ sb : Superblock, Option (TableBlocks sb)) (mem' : ℕ → UInt8)
    (h : Formatted n p mem (b.disk root)) (halloc : alloc (freshSuperblock n) = some p') :
    MountedEmpty (freshPartition n) p' (initFs io root alloc b mem') ↔ TailHarmless p mem p' := by
  obtain ⟨hg, hmem⟩ := initFs_formatted hn hsize hio alloc mem' h halloc
  rw [MountedEmpty, hg, hmem, ← h.empty_iff mem']
  constructor
  · exact fun hm => hm.2
  · exact fun he => ⟨if_pos he.accepted, he⟩

end Served

end Mounts

end Fresh

def zeroDisk : Bcache := bcacheInit fun _ _ _ => 0

lemma tailHarmless_tailBlocks (sb : Superblock) (p : TableBlocks sb) (mem : ℕ → UInt8) :
    TailHarmless p mem (tailBlocks sb) := by
  intro i hi hle
  have hin := (usedByte_dir (p := tailBlocks sb) hi).2
  have hb := le_kmallocBytes (sb.maxEntries * entrySize)
  simp only [tailBlocks] at hle hin
  omega

/-- The allocation table in a hole, a block of 16 bytes that is in use, and the directory table,
each behind its header of 32 bytes. -/
def headBlocks (sb : Superblock) : TableBlocks sb where
  dirTable := 32 + kmallocBytes (sb.totalClusters * 4) + 80
  fat := 32
  disjoint := .inr (Nat.le_add_right _ 80)

lemma tableAccepted_false {sb : Superblock} {p : TableBlocks sb} {mem : ℕ → UInt8}
    (hp : 0 < sb.maxEntries) (hu : mem (p.dirTable + 95) ≠ 0)
    (hi : mem (p.dirTable + 88) ≠ 0) : tableAccepted sb p mem = false := by
  obtain ⟨k, hk⟩ := Nat.exists_eq_succ_of_ne_zero hp.ne'
  have hu' : entryUsed sb p ⟨mem, fun _ _ => 0, [], false⟩ 0 ≠ 0 := by
    rw [ne_eq, entryUsed_eq_zero]
    simpa using hu
  have hi' : entryIdOf sb p (touchEntry sb p ⟨mem, fun _ _ => 0, [], false⟩ 0) 0 ≠ 0 := by
    rw [ne_eq, ← UInt8.toNat_inj] at hi
    exact fun h0 => hi (Nat.add_eq_zero_iff.1 h0).1
  rw [tableAccepted, hk, range_succ_eq_map, fsValidateDirectoryTable, if_neg hu']
  simp [validateEntry, hi']

end EsdumanOS
