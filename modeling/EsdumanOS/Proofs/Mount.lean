import EsdumanOS.Mount
import EsdumanOS.Proofs.Drain

/-!
# Mounting destroys nothing

While `init_fs` only reads, the cache has no dirty slot and holds what the devices hold
(`Untouched`). It leaves that state when it writes a partition table, after finding the first 200
sectors zero, and when it writes the allocation table back, after accepting everything else.
-/

namespace EsdumanOS

open Lib List Sector Errno

variable {disk : ℕ → ℕ → Sector} {m m' : Mounting} {io : Io} {root lba : ℕ} {buf : Buf}

structure Untouched (disk : ℕ → ℕ → Sector) (m : Mounting) : Prop where
  inv : CacheInv disk m.cache
  clean : DirtyData m.cache = ∅
  log : m.cache.log = []

lemma Untouched.tidy (h : Untouched disk m) : Tidy m.cache := h.inv.dirtyValid

lemma Untouched.disk_eq (h : Untouched disk m) : m.cache.disk = disk := by
  funext d s
  have hdi := h.inv.disk d s fun i _ => by
    by_contra hd
    have hmem := @mem_dirtyData m.cache i (by simpa using hd)
    rw [h.clean] at hmem
    exact absurd hmem (Set.notMem_empty _)
  rw [hdi, h.log]
  rfl

lemma Untouched.of_drains (hinv : CacheInv disk m'.cache) (h : Untouched disk m)
    (hd : Drains m.cache m'.cache) : Untouched disk m' :=
  ⟨hinv, Set.subset_eq_empty hd.dirty h.clean, (hd.log_eq h.clean).trans h.log⟩

structure Goes (m m' : Mounting) : Prop where
  tidy : Tidy m'.cache
  log : m.cache.log <:+ m'.cache.log
  reads : m.reads <:+ m'.reads

lemma Goes.refl (h : Tidy m.cache) : Goes m m := ⟨h, suffix_rfl, suffix_rfl⟩

lemma Goes.trans {m'' : Mounting} (h : Goes m m') (h' : Goes m' m'') : Goes m m'' :=
  ⟨h'.tidy, h.log.trans h'.log, h.reads.trans h'.reads⟩

lemma Goes.mem (h : Goes m m') (mem : ℕ → UInt8) : Goes m { m' with mem := mem } :=
  ⟨h.tidy, h.log, h.reads⟩

lemma Goes.read (h : Tidy m.cache) : Goes m (m.read io root lba buf).2.2 :=
  have hd := bcacheReadSector_drains h _
  ⟨hd.tidy, hd.suffix, suffix_cons _ _⟩

lemma Goes.write (h : Tidy m.cache) : Goes m (m.write io root lba buf).2 :=
  ⟨(bcacheWriteSector_log h _).1, bcacheWriteSector_suffix h _, suffix_rfl⟩

lemma Goes.cache {b : Bcache} (h : Goes m m') (hd : Drains m'.cache b) :
    Goes m { m' with cache := b } :=
  ⟨hd.tidy, h.log.trans hd.suffix, h.reads⟩

lemma Goes.mem_reads (h : Goes m m') {x : ℕ × Errno} (hx : x ∈ m.reads) : x ∈ m'.reads :=
  h.reads.mem hx

lemma Untouched.read (h : Untouched disk m) : Untouched disk (m.read io root lba buf).2.2 ∧
    ((m.read io root lba buf).1 = .ok →
      (m.read io root lba buf).2.1 = bytes (disk root lba)) := by
  obtain ⟨hq, hd⟩ := @bcacheReadSector_spec disk m.cache io root lba h.inv
    (some (ofBuf buf))
  refine ⟨.of_drains hq.inv h (bcacheReadSector_drains h.tidy _), fun hok => ?_⟩
  have hv := hd hok
  rw [h.log] at hv
  unfold Mounting.read
  dsimp only
  rw [hv]
  rfl

lemma read_reads : (lba, (m.read io root lba buf).1) ∈ (m.read io root lba buf).2.2.reads :=
  mem_cons_self

lemma Sector.ofBuf_bytes (s : Sector) : ofBuf (bytes s) = s := by
  funext i
  simp [ofBuf, bytes]

/-- A write is refused and changes nothing, or it is the first entry of the log. -/
lemma Untouched.write (h : Untouched disk m) (s : Sector) :
    ((m.write io root lba (bytes s)).1 ≠ .ok ∧
      Untouched disk (m.write io root lba (bytes s)).2) ∨
    [.accept root lba s] <:+ (m.write io root lba (bytes s)).2.cache.log := by
  unfold Mounting.write
  rw [ofBuf_bytes]
  rcases (@bcacheWriteSector_log m.cache io root lba h.tidy s).2 with
    ⟨hne, hd⟩ | ⟨-, b1, l, hd, hl⟩
  · refine .inl ⟨hne, .of_drains ?_ h hd⟩
    rcases @bcacheWriteSector_spec disk m.cache io root lba h.inv (some s) with
      ⟨-, hq⟩ | ⟨_, _, hok, _⟩
    · exact hq.inv
    · exact absurd hok hne
  · refine .inr ⟨l, ?_⟩
    rw [hl, hd.log_eq h.clean, h.log]

section Rules

variable {d : Partition} {sb : Superblock} {p : TableBlocks sb} {P : Mounting → Prop}
  {alloc : ∀ sb : Superblock, Option (TableBlocks sb)} {lbaOf : ℕ → ℕ}
  {buffer : (ℕ → UInt8) → ℕ → Buf} {store : (ℕ → UInt8) → ℕ → Buf → ℕ → UInt8} {always : Bool}

/-- The loop over the sectors of a table: a read is stored, a failed one only if `always`. -/
def readTable (io : Io) (root : ℕ) (lbaOf : ℕ → ℕ) (buffer : (ℕ → UInt8) → ℕ → Buf)
    (store : (ℕ → UInt8) → ℕ → Buf → ℕ → UInt8) (always : Bool) :
    List ℕ → Mounting → Bool × Mounting
  | [], m => (true, m)
  | i :: is, m =>
    let r := m.read io root (lbaOf i) (buffer m.mem i)
    let m' := { r.2.2 with mem := store r.2.2.mem i r.2.1 }
    if r.1 ≠ .ok then (false, if always then m' else r.2.2)
    else readTable io root lbaOf buffer store always is m'

lemma readDirTable_eq : ∀ (is : List ℕ) (m : Mounting), readDirTable io root d sb p is m =
    readTable io root (fun i => d.lba (sb.dirStart + i)) (fun _ _ _ => 0)
      (fun mem i => storeBytes mem (p.dirTable + i * 512) (dirCopySize sb i)) false is m
  | [], _ => rfl
  | i :: is, m => by
    simp only [readDirTable, readTable, readDirTable_eq is, Bool.false_eq_true, if_false]

lemma readFatTable_eq : ∀ (is : List ℕ) (m : Mounting), readFatTable io root d sb p is m =
    readTable io root (fun i => d.lba (sb.fatStart + i)) (fun mem i k => mem (p.fat + i * 512 + k))
      (fun mem i => storeBytes mem (p.fat + i * 512) 512) true is m
  | [], _ => rfl
  | i :: is, m => by simp only [readFatTable, readTable, readFatTable_eq is, if_true]

/-- What every access of `init_fs` to the root device keeps. -/
structure MountSteps (io : Io) (root : ℕ) (P : Mounting → Prop) : Prop where
  read : ∀ {m : Mounting} (lba : ℕ) (buf : Buf), P m → P (m.read io root lba buf).2.2
  write : ∀ {m : Mounting} (lba : ℕ) (buf : Buf), P m → P (m.write io root lba buf).2
  mem : ∀ {m : Mounting} (mem : ℕ → UInt8), P m → P { m with mem := mem }
  flush : ∀ {m : Mounting}, P m → P { m with cache := (bcacheFlush io m.cache).2 }

namespace MountSteps

variable (h : MountSteps io root P)

include h

lemma table : ∀ (is : List ℕ) {m : Mounting}, P m →
    P (readTable io root lbaOf buffer store always is m).2
  | [], _, hm => hm
  | i :: is, m, hm => by
    have hr := h.read (lbaOf i) (buffer m.mem i) hm
    unfold readTable
    dsimp only
    split_ifs
    · exact h.mem _ hr
    · exact hr
    · exact table is (h.mem _ hr)

lemma blank : ∀ (ss : List ℕ) {m : Mounting}, P m → P (diskRegionIsBlank io root ss m).2
  | [], _, hm => hm
  | s :: ss, m, hm => by
    have hr := h.read s (fun _ => 0) hm
    unfold diskRegionIsBlank
    dsimp only
    split_ifs
    · exact hr
    · exact blank ss hr
    · exact hr

lemma writes {buf : Mounting → ℕ → Buf} (is : List ℕ) (hm : P m) :
    P (is.foldl (fun m i => (m.write io root (lbaOf i) (buf m i)).2) m) :=
  @foldl_invariant Mounting ℕ _ P (fun _ _ => h.write _ _) is m hm

lemma load (hm : P m) : P (loadTables io root d sb p m).2 := by
  unfold loadTables
  simp only [readDirTable_eq, readFatTable_eq]
  split_ifs
  · exact h.table _ hm
  · exact h.table _ (h.table _ hm)
  · refine h.mem _ ?_
    exact h.table _ (h.table _ hm)
  · refine h.writes _ (h.mem _ ?_)
    exact h.table _ (h.table _ hm)

lemma fresh (hm : P m) : P (writeFresh io root d sb p m) := by
  refine h.flush (h.writes _ (h.writes _ (h.write _ _ (h.writes _ ?_))))
  exact h.mem _ hm

lemma format (n : ℕ) (hm : P m) : P (formatAndMount io root alloc n m).2 := by
  have hw := h.write 0 (bytes (mbrSector n)) hm
  unfold formatAndMount
  dsimp only
  split_ifs
  · exact hm
  · exact hw
  · split
    · exact hw
    · exact h.load (h.fresh hw)

lemma unpartitioned (n : ℕ) (hm : P m) : P (mountUnpartitioned io root alloc n m).2 := by
  have hr := h.read 0 (fun _ => 0) hm
  have hb := h.blank (range (fsPartStartLba + fsLegacyDirSectors)) hr
  unfold mountUnpartitioned
  dsimp only
  split_ifs
  · exact hr
  · exact hr
  · exact h.format n hb
  · exact hb

lemma partition (hm : P m) : P (mountPartition io root alloc d m).2 := by
  have hr := h.read (d.lba fsSuperSector) (fun _ => 0) hm
  unfold mountPartition
  dsimp only
  split_ifs
  · exact hr
  · exact hr
  · split
    · exact hr
    · exact h.load (h.mem _ hr)

lemma init {b : Bcache} {mem : ℕ → UInt8} (hm : P ⟨b.reset, mem, []⟩) :
    P (initFs io root alloc b mem).2 := by
  have hr := h.read 0 (fun _ => 0) hm
  unfold initFs
  dsimp only
  split_ifs
  · exact hm
  · exact hr
  · split
    · exact h.partition hr
    · exact h.unpartitioned _ hr

end MountSteps

lemma goes_steps (m0 : Mounting) : MountSteps io root (Goes m0) where
  read _ _ h := h.trans (.read h.tidy)
  write _ _ h := h.trans (.write h.tidy)
  mem mem h := h.mem mem
  flush h := h.cache (bcacheFlush_drains h.tidy)

/-- The reads of the sectors in `Q` that succeed give what `W` has. -/
structure TableReader (io : Io) (root : ℕ) (Q : ℕ → Prop) (W : ℕ → Sector) (P : Mounting → Prop) :
    Prop where
  tidy : ∀ {m : Mounting}, P m → Tidy m.cache
  read : ∀ {m : Mounting} {lba : ℕ} (buf : Buf), Q lba → P m → P (m.read io root lba buf).2.2
  data : ∀ {m : Mounting} {lba : ℕ} (buf : Buf), Q lba → P m → (m.read io root lba buf).1 = .ok →
    (m.read io root lba buf).2.1 = bytes (W lba)
  mem : ∀ {m : Mounting} (mem : ℕ → UInt8), P m → P { m with mem := mem }

variable {Q : ℕ → Prop} {W : ℕ → Sector}

/-- A table that is read in full has had every sector read, and holds what they hold. -/
lemma TableReader.table (h : TableReader io root Q W P) : ∀ (is : List ℕ) {m : Mounting},
    (∀ i ∈ is, Q (lbaOf i)) → P m →
    let r := readTable io root lbaOf buffer store always is m
    P r.2 ∧ (r.1 = true → (∀ i ∈ is, (lbaOf i, ok) ∈ r.2.reads) ∧
      r.2.mem = is.foldl (fun mem i => store mem i (bytes (W (lbaOf i)))) m.mem)
  | [], m, _, hm => ⟨hm, fun _ => ⟨by simp, rfl⟩⟩
  | i :: is, m, hQ, hm => by
    have hr := h.read (buffer m.mem i) (hQ i mem_cons_self) hm
    have hd := h.data (buffer m.mem i) (hQ i mem_cons_self) hm
    have hi := @read_reads m io root (lbaOf i) (buffer m.mem i)
    unfold readTable
    dsimp only
    split_ifs with hok
    · exact ⟨h.mem _ hr, by simp⟩
    · exact ⟨hr, by simp⟩
    · rw [not_not] at hok
      rw [hd hok]
      have hn := h.mem (store m.mem i (bytes (W (lbaOf i)))) hr
      obtain ⟨hP, ha⟩ := h.table is (fun j hj => hQ j (mem_cons_of_mem i hj)) hn
      refine ⟨hP, fun ht => ⟨?_, (ha ht).2⟩⟩
      exact forall_mem_cons.2 ⟨Goes.mem_reads ((goes_steps _).table is (.refl (h.tidy hn)))
        (hok ▸ hi), (ha ht).1⟩

lemma TableReader.table_ok (h : TableReader io root Q W P)
    (hok : ∀ {m : Mounting} {lba : ℕ} (buf : Buf), Q lba → P m → (m.read io root lba buf).1 = .ok) :
    ∀ (is : List ℕ) {m : Mounting}, (∀ i ∈ is, Q (lbaOf i)) → P m →
      (readTable io root lbaOf buffer store always is m).1 = true
  | [], _, _, _ => rfl
  | i :: is, m, hQ, hm => by
    unfold readTable
    rw [if_neg (not_not.2 (hok _ (hQ i mem_cons_self) hm))]
    exact h.table_ok hok is (fun j hj => hQ j (mem_cons_of_mem i hj))
      (h.mem _ (h.read _ (hQ i mem_cons_self) hm))

def tablesRead (V : ℕ → Sector) (d : Partition) (p : TableBlocks sb) (mem : ℕ → UInt8) :
    ℕ → UInt8 :=
  let mem := (range (dirSectorsFor sb.maxEntries)).foldl (fun mem i =>
    storeBytes mem (p.dirTable + i * 512) (dirCopySize sb i)
      (bytes (V (d.lba (sb.dirStart + i))))) mem
  let mem := (range (fatSectorsFor sb.totalClusters)).foldl (fun mem i =>
    storeBytes mem (p.fat + i * 512) 512 (bytes (V (d.lba (sb.fatStart + i))))) mem
  markReserved sb p mem

lemma TableReader.tables (h : TableReader io root Q W P)
    (hd : ∀ i ∈ range (dirSectorsFor sb.maxEntries), Q (d.lba (sb.dirStart + i)))
    (hf : ∀ i ∈ range (fatSectorsFor sb.totalClusters), Q (d.lba (sb.fatStart + i))) (hm : P m) :
    let r := readDirTable io root d sb p (range (dirSectorsFor sb.maxEntries)) m
    let r' := readFatTable io root d sb p (range (fatSectorsFor sb.totalClusters)) r.2
    P r.2 ∧ P r'.2 ∧ (r.1 = true → r'.1 = true →
      (∀ i < dirSectorsFor sb.maxEntries, (d.lba (sb.dirStart + i), ok) ∈ r'.2.reads) ∧
      (∀ i < fatSectorsFor sb.totalClusters, (d.lba (sb.fatStart + i), ok) ∈ r'.2.reads) ∧
      markReserved sb p r'.2.mem = tablesRead W d p m.mem) := by
  simp only [readDirTable_eq, readFatTable_eq]
  refine ⟨(h.table _ hd hm).1, (h.table _ hf (h.table _ hd hm).1).1, fun hdo hfo => ?_⟩
  obtain ⟨hdr, hdm⟩ := (h.table _ hd hm).2 hdo
  obtain ⟨hfr, hfm⟩ := (h.table _ hf (h.table _ hd hm).1).2 hfo
  refine ⟨fun i hi => ?_, fun i hi => hfr i (mem_range.2 hi), ?_⟩
  · exact Goes.mem_reads ((goes_steps _).table _ (.refl (h.tidy (h.table _ hd hm).1)))
      (hdr i (mem_range.2 hi))
  · rw [hfm, hdm]
    rfl

lemma untouched_reader : TableReader io root (fun _ => True) (disk root) (Untouched disk) where
  tidy h := h.tidy
  read _ _ h := h.read.1
  data _ _ h := h.read.2
  mem _ h := ⟨h.inv, h.clean, h.log⟩

end Rules

section Loops

lemma diskRegionIsBlank_spec : ∀ (ss : List ℕ) {m : Mounting}, Untouched disk m →
    Untouched disk (diskRegionIsBlank io root ss m).2 ∧
    ((diskRegionIsBlank io root ss m).1 = some true →
      ∀ s ∈ ss, (s, ok) ∈ (diskRegionIsBlank io root ss m).2.reads ∧
        disk root s = fun _ => 0)
  | [], m, h => ⟨h, by simp⟩
  | s :: ss, m, h => by
    obtain ⟨hr, hd⟩ := @Untouched.read disk m io root s (fun _ => 0) h
    have hi := @read_reads m io root s (fun _ => 0)
    unfold diskRegionIsBlank
    dsimp only
    split_ifs with hok hz
    · exact ⟨hr, by simp⟩
    · rw [not_not] at hok
      obtain ⟨hu, hb⟩ := diskRegionIsBlank_spec ss hr
      refine ⟨hu, fun ht => ?_⟩
      have hg := @MountSteps.blank io root _ (goes_steps _) ss _ (.refl hr.tidy)
      rw [forall_mem_cons]
      refine ⟨⟨hg.mem_reads (hok ▸ hi), ?_⟩, hb ht⟩
      rw [hd hok, all_eq_true] at hz
      funext i
      have := hz i (mem_range.2 i.isLt)
      simpa [bytes] using this
    · exact ⟨hr, by simp⟩

variable {d : Partition} {sb : Superblock} {p : TableBlocks sb}

lemma writeFatTable_reads : (writeFatTable io root d sb p m).reads = m.reads := by
  unfold writeFatTable
  generalize range (fatSectorsFor sb.totalClusters) = is
  induction is generalizing m with
  | nil => rfl
  | cons i is ih => exact ih

lemma writeFatTable_mem : (writeFatTable io root d sb p m).mem = m.mem := by
  refine @foldl_invariant Mounting ℕ _ (fun m' => m'.mem = m.mem) ?_ _ m rfl
  exact fun _ _ h => h

end Loops

section Init

variable {d : Partition} {sb : Superblock} {p : TableBlocks sb}
  {alloc : ∀ sb : Superblock, Option (TableBlocks sb)}

def Refused (disk : ℕ → ℕ → Sector) (r : FsGlobals × Mounting) : Prop :=
  r.1.mounted = false ∧ Untouched disk r.2

lemma Untouched.refused {g : FsGlobals} (h : Untouched disk m) (hg : g.mounted = false) :
    Refused disk (g, m) :=
  ⟨hg, h⟩

lemma loadTables_spec (h : Untouched disk m) :
    Refused disk (loadTables io root d sb p m) ∨
    ((loadTables io root d sb p m).1.mounted = true ∧
      (∀ i < dirSectorsFor sb.maxEntries,
        (d.lba (sb.dirStart + i), ok) ∈ (loadTables io root d sb p m).2.reads) ∧
      (∀ i < fatSectorsFor sb.totalClusters,
        (d.lba (sb.fatStart + i), ok) ∈ (loadTables io root d sb p m).2.reads) ∧
      ∀ mem, m.mem = clearTables sb p mem →
        tableAccepted sb p (tablesFromDisk (disk root) d sb p mem) = true) := by
  obtain ⟨hdir, hfa, hal⟩ := @TableReader.tables m io root d sb p _ _ _ untouched_reader
    (fun _ _ => trivial) (fun _ _ => trivial) h
  unfold loadTables
  dsimp only
  split_ifs with hd hf ha
  · exact .inl (hdir.refused rfl)
  · exact .inl (hfa.refused rfl)
  · exact .inl (Untouched.refused ⟨hfa.inv, hfa.clean, hfa.log⟩ rfl)
  · simp only [Bool.not_eq_true, Bool.not_eq_false'] at hd hf ha
    obtain ⟨hdr, hfr, hr⟩ := hal hd hf
    refine .inr ⟨rfl, fun i hi => ?_, fun i hi => ?_, fun mem hmem => ?_⟩
    · rw [writeFatTable_reads]
      exact hdr i hi
    · rw [writeFatTable_reads]
      exact hfr i hi
    · rw [hr, hmem] at ha
      exact ha

lemma formatAndMount_spec (n : ℕ) (h : Untouched disk m) :
    Refused disk (formatAndMount io root alloc n m) ∨
    (fsFirstDataCluster + 1 ≤ estimateClusters (n - fsPartStartLba) ∧
      [.accept root 0 (mbrSector n)] <:+ (formatAndMount io root alloc n m).2.cache.log) := by
  have hw := @Goes.write m io root 0 (bytes (mbrSector n)) h.tidy
  have hm := @Untouched.write disk m io root 0 h (mbrSector n)
  have hs := @goes_steps io root (m.write io root 0 (bytes (mbrSector n))).2
  unfold formatAndMount
  dsimp only
  split_ifs with hsi hok
  · exact .inl (h.refused rfl)
  · rcases hm with ⟨-, hu⟩ | hl
    · exact .inl (hu.refused rfl)
    · exact .inr ⟨by omega, hl⟩
  · rw [not_not] at hok
    have hl := hm.resolve_left fun hne => hne.1 hok
    split
    · exact .inr ⟨by omega, hl⟩
    · rename_i p _
      exact .inr ⟨by omega, hl.trans (Goes.log (hs.load (hs.fresh (.refl hw.tidy))))⟩

lemma mountUnpartitioned_spec (n : ℕ) (h : Untouched disk m) :
    Refused disk (mountUnpartitioned io root alloc n m) ∨
    (DiskBlank (disk root) (mountUnpartitioned io root alloc n m).2.reads ∧
      fsFirstDataCluster + 1 ≤ estimateClusters (n - fsPartStartLba) ∧
      [.accept root 0 (mbrSector n)] <:+ (mountUnpartitioned io root alloc n m).2.cache.log) := by
  obtain ⟨hr, -⟩ := @Untouched.read disk m io root 0 (fun _ => 0) h
  obtain ⟨hu, hb⟩ := @diskRegionIsBlank_spec disk io root
    (range (fsPartStartLba + fsLegacyDirSectors)) _ hr
  unfold mountUnpartitioned
  dsimp only
  split_ifs with hok hm ht
  · exact .inl (hr.refused rfl)
  · exact .inl (hr.refused rfl)
  · rcases @formatAndMount_spec disk _ io root alloc n hu with hrf | hl
    · exact .inl hrf
    · refine .inr ⟨fun s hs => ?_, hl⟩
      obtain ⟨hre, hz⟩ := hb ht s (mem_range.2 hs)
      exact ⟨((goes_steps _).format n (.refl hu.tidy)).mem_reads hre, hz⟩
  · exact .inl (hu.refused rfl)

lemma mountPartition_spec (n : ℕ) (h : Untouched disk m) (hz : (0, ok) ∈ m.reads)
    (hpa : loadPartition n (bytes (disk root 0)) = some d) :
    Refused disk (mountPartition io root alloc d m) ∨
      ((mountPartition io root alloc d m).1.mounted = true ∧
        DiskAccepted n (disk root) m.mem (mountPartition io root alloc d m).2.reads) := by
  obtain ⟨hr, hd⟩ := @Untouched.read disk m io root (d.lba fsSuperSector) (fun _ => 0) h
  have hg := @Goes.read m io root (d.lba fsSuperSector) (fun _ => 0) h.tidy
  have hi := @read_reads m io root (d.lba fsSuperSector) (fun _ => 0)
  unfold mountPartition
  dsimp only
  split_ifs with hok hs
  · exact .inl (hr.refused rfl)
  · exact .inl (hr.refused rfl)
  · rw [not_not] at hok
    simp only [Bool.not_eq_true, Bool.not_eq_false'] at hs
    split
    · exact .inl (hr.refused rfl)
    · rename_i p hp
      have hn : Untouched disk { (m.read io root (d.lba fsSuperSector) fun _ => 0).2.2 with
          mem := clearTables _ p m.mem } := ⟨hr.inv, hr.clean, hr.log⟩
      have hgo := @MountSteps.load _ io root d _ p _ (goes_steps _) (.refl hn.tidy)
      rcases @loadTables_spec disk _ io root d _ p hn with hre | ⟨hm, hdir, hf, ha⟩
      · exact .inl hre
      · refine .inr ⟨hm, d, _, p, ⟨hgo.mem_reads (hg.mem_reads hz), hpa⟩,
          ⟨hgo.mem_reads (hok ▸ hi), ?_, hs⟩, hdir, hf, ha m.mem rfl⟩
        rw [hd hok]

lemma reset_untouched (b : Bcache) (mem : ℕ → UInt8) : Untouched b.disk ⟨b.reset, mem, []⟩ := by
  refine ⟨(bcacheInit_inv b.disk).requests b.reqs, ?_, rfl⟩
  refine Set.eq_empty_of_forall_notMem fun x hx => ?_
  obtain ⟨i, hi, -⟩ := hx
  simp [Bcache.reset, bcacheInit] at hi

variable (io root alloc) (b : Bcache) (mem : ℕ → UInt8)

lemma initFs_cases :
    Refused b.disk (initFs io root alloc b mem) ∨
    (DiskBlank (b.disk root) (initFs io root alloc b mem).2.reads ∧
      fsFirstDataCluster + 1 ≤ estimateClusters (diskSectors io root - fsPartStartLba) ∧
      [.accept root 0 (mbrSector (diskSectors io root))] <:+
        (initFs io root alloc b mem).2.cache.log) ∨
    ((initFs io root alloc b mem).1.mounted = true ∧
      DiskAccepted (diskSectors io root) (b.disk root) mem
        (initFs io root alloc b mem).2.reads) := by
  have h := reset_untouched b mem
  obtain ⟨hr, hd⟩ := @Untouched.read b.disk ⟨b.reset, mem, []⟩ io root 0 (fun _ => 0) h
  have hi := @read_reads ⟨b.reset, mem, []⟩ io root 0 (fun _ => 0)
  unfold initFs
  dsimp only
  split_ifs with hs hok
  · exact .inl (h.refused rfl)
  · exact .inl (hr.refused rfl)
  · rw [not_not] at hok
    rw [hok] at hi
    rw [hd hok]
    rcases hp : loadPartition (diskSectors io root) (bytes (b.disk root 0)) with _ | d
    · rcases @mountUnpartitioned_spec b.disk _ io root alloc (diskSectors io root) hr with
        href | hblank
      · exact .inl href
      · exact .inr (.inl hblank)
    · rcases @mountPartition_spec b.disk _ io root d alloc (diskSectors io root) hr hi hp with
        href | hacc
      · exact .inl href
      · exact .inr (.inr hacc)

lemma initFs_tidy : Tidy (initFs io root alloc b mem).2.cache :=
  ((goes_steps _).init (.refl (reset_untouched b mem).tidy)).tidy

/-- `init_fs` leaves a disk alone unless its first 200 sectors are zero and it formats it, or
partition, superblock and directory table are accepted. -/
theorem initFs_spares (io : Io) (root : ℕ) (alloc : ∀ sb : Superblock, Option (TableBlocks sb))
    (b : Bcache) (mem : ℕ → UInt8) :
    let r := initFs io root alloc b mem
    (r.1.mounted = false ∧ r.2.cache.log = [] ∧ r.2.cache.disk = b.disk) ∨
    (DiskBlank (b.disk root) r.2.reads ∧
      [.accept root 0 (mbrSector (diskSectors io root))] <:+ r.2.cache.log) ∨
    DiskAccepted (diskSectors io root) (b.disk root) mem r.2.reads := by
  rcases initFs_cases io root alloc b mem with ⟨hm, hu⟩ | ⟨hblank, -, hlog⟩ | ⟨-, hacc⟩
  · exact .inl ⟨hm, hu.log, hu.disk_eq⟩
  · exact .inr (.inl ⟨hblank, hlog⟩)
  · exact .inr (.inr hacc)

end Init

section ReadOnlyDevice

variable {d : Partition} {sb : Superblock} {p : TableBlocks sb}
  {alloc : ∀ sb : Superblock, Option (TableBlocks sb)}

section

variable (hw : (io.dev root).hasWrite = false)
include hw

lemma write_readOnly : (m.write io root lba buf).2 = m := by
  have hch : blockdevCheckWrite io root lba true ≠ .ok := by
    unfold blockdevCheckWrite
    split_ifs with hc
    · exact hc
    all_goals simp_all
  unfold Mounting.write bcacheWriteSector
  dsimp only
  rw [if_pos hch]

lemma untouched_steps : MountSteps io root (Untouched disk) := by
  refine ⟨fun _ _ h => h.read.1, fun _ _ h => ?_, fun _ h => ⟨h.inv, h.clean, h.log⟩,
    fun {m} h => ?_⟩
  · rw [write_readOnly hw]
    exact h
  · have hq : Quiet disk m.cache (bcacheFlush io m.cache).2 := bcacheFlush_quiet h.inv
    have hd : Drains m.cache (bcacheFlush io m.cache).2 := bcacheFlush_drains h.tidy
    generalize (bcacheFlush io m.cache).2 = b at hq hd
    exact .of_drains hq.inv h hd

lemma initFs_readOnly (b : Bcache) (mem : ℕ → UInt8) :
    Untouched b.disk (initFs io root alloc b mem).2 :=
  (untouched_steps hw).init (reset_untouched b mem)

end

end ReadOnlyDevice

end EsdumanOS
