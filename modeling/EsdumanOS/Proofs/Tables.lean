import EsdumanOS.Tables
import EsdumanOS.Proofs.Invariant

/-!
# The tables and their blocks

The directory table is copied by its exact number of bytes, the allocation table in whole sectors of
128 entries. Unless the number of clusters is a multiple of 128, the rest of the last sector is
loaded into memory that holds no entry, and written back from there.
-/

namespace EsdumanOS

open List TableMem Env

section Inside

variable {e : Env} {d : Partition} {sb : Superblock} {p : TableBlocks sb} {m : TableMem} {a n : ℕ}

def Inside (p : TableBlocks sb) (m : TableMem) : Prop :=
  ∀ r ∈ m.touched, ∀ k < r.2, p.Owns (r.1 + k)

lemma Inside.touch (h : Inside p m) (hr : ∀ k < n, p.Owns (a + k)) : Inside p (m.touch a n) := by
  intro r hmem
  rcases mem_cons.1 hmem with rfl | hmem
  · exact hr
  · exact h r hmem

lemma Inside.store {bytes : Buf} (h : Inside p m) (hr : ∀ k < n, p.Owns (a + k)) :
    Inside p (m.store a n bytes) :=
  h.touch hr

lemma le_kmallocBytes (n : ℕ) : n ≤ kmallocBytes n := by
  unfold kmallocBytes
  omega

lemma owns_dir {off k : ℕ} (h : off + n ≤ sb.maxEntries * entrySize) (hk : k < n) :
    p.Owns (p.dirTable + off + k) := by
  have := le_kmallocBytes (sb.maxEntries * entrySize)
  exact .inl ⟨by omega, by omega⟩

lemma owns_fat {off k : ℕ} (h : off + n ≤ sb.totalClusters * 4) (hk : k < n) :
    p.Owns (p.fat + off + k) := by
  have := le_kmallocBytes (sb.totalClusters * 4)
  exact .inr ⟨by omega, by omega⟩

lemma dirCopySize_le {i : ℕ} (hi : i < dirSectorsFor sb.maxEntries) :
    i * 512 + dirCopySize sb i ≤ sb.maxEntries * entrySize := by
  unfold dirSectorsFor at hi
  unfold dirCopySize
  split_ifs with hl
  · simp only [entrySize] at *
    omega
  · simp only [entrySize] at *
    omega

lemma owns_dirSector {i k : ℕ} (hi : i < dirSectorsFor sb.maxEntries)
    (hk : k < dirCopySize sb i) : p.Owns (p.dirTable + i * 512 + k) :=
  owns_dir (dirCopySize_le hi) hk

def FullSector (sb : Superblock) (i : ℕ) : Prop :=
  i * 512 + 512 ≤ sb.totalClusters * 4

lemma fullSector_of_lt {i : ℕ} (hi : i + 1 < fatSectorsFor sb.totalClusters) :
    FullSector sb i := by
  simp only [fatSectorsFor, FullSector] at *
  omega

lemma fullSector_of_dvd {i : ℕ} (hm : sb.totalClusters % 128 = 0)
    (hi : i < fatSectorsFor sb.totalClusters) : FullSector sb i := by
  simp only [fatSectorsFor, FullSector] at *
  omega

lemma zeroTables_inside (h : Inside p m) : Inside p (zeroTables sb p m) :=
  (h.store fun _ hk => @owns_dir sb p _ 0 _ (by omega) hk).store
    fun _ hk => @owns_fat sb p _ 0 _ (by omega) hk

lemma loadDir_inside : ∀ (is : List ℕ) {m : TableMem},
    (∀ i ∈ is, i < dirSectorsFor sb.maxEntries) → Inside p m → Inside p (loadDir e d sb p is m).2
  | [], _, _, h => h
  | i :: is, m, hlt, h => by
    unfold loadDir
    split_ifs
    · exact loadDir_inside is (fun j hj => hlt j (mem_cons_of_mem _ hj))
        (h.store fun _ hk => owns_dirSector (hlt i mem_cons_self) hk)
    · exact h

lemma loadFat_inside : ∀ (is : List ℕ) {m : TableMem}, (∀ i ∈ is, FullSector sb i) →
    Inside p m → Inside p (loadFat e d sb p is m).2
  | [], _, _, h => h
  | i :: is, m, hf, h => by
    have hi : ∀ k < 512, p.Owns (p.fat + i * 512 + k) := fun _ hk =>
      owns_fat (hf i mem_cons_self) hk
    unfold loadFat
    split_ifs
    · split
      · exact loadFat_inside is (fun j hj => hf j (mem_cons_of_mem _ hj)) (h.store hi)
      · exact h.store hi
    · exact h

/-- A load that reaches a sector beyond the device fails there, before the last sector of the
table. -/
lemma loadFat_stops {i : ℕ} {js : List ℕ} (hi : ¬ d.onDevice (sb.fatStart + i)) :
    ∀ (is : List ℕ) {m : TableMem}, (∀ i ∈ is, FullSector sb i) → Inside p m →
      (loadFat e d sb p (is ++ i :: js) m).1 = false ∧
        Inside p (loadFat e d sb p (is ++ i :: js) m).2
  | [], m, _, h => by
    rw [nil_append, loadFat, if_neg hi]
    exact ⟨rfl, h⟩
  | k :: is, m, hf, h => by
    have hk : ∀ x < 512, p.Owns (p.fat + k * 512 + x) := fun _ hx =>
      owns_fat (hf k mem_cons_self) hx
    rw [cons_append, loadFat]
    split_ifs
    · split
      · exact loadFat_stops hi is (fun j hj => hf j (mem_cons_of_mem _ hj)) (h.store hk)
      · exact ⟨rfl, h.store hk⟩
    · exact ⟨rfl, h⟩

lemma loadDir_stops {i : ℕ} (hi : ¬ d.onDevice (sb.dirStart + i)) :
    ∀ (is : List ℕ) {m : TableMem}, i ∈ is → (loadDir e d sb p is m).1 = false
  | k :: is, m, hmem => by
    unfold loadDir
    split_ifs with hk
    · rcases mem_cons.1 hmem with rfl | hmem
      · exact absurd hk.1 hi
      · exact loadDir_stops hi is hmem
    · rfl

lemma foldl_range_inside {round : TableMem → ℕ → TableMem} :
    ∀ (n : ℕ), (∀ m i, i < n → Inside p m → Inside p (round m i)) → ∀ {m}, Inside p m →
      Inside p ((range n).foldl round m)
  | 0, _, _, h => h
  | n + 1, hr, m, h => by
    rw [range_succ, foldl_append]
    exact hr _ n (by omega)
      (foldl_range_inside n (fun m i hi => hr m i (by omega)) h)

lemma reserveClusters_inside (h : Inside p m) : Inside p (reserveClusters sb p m) := by
  refine foldl_range_inside _ (fun m i hi hm => hm.store fun k hk => ?_) h
  exact owns_fat (by omega) hk

lemma touchEntry_inside {i : ℕ} (hi : i < sb.maxEntries) (h : Inside p m) :
    Inside p (touchEntry sb p m i) := by
  refine h.touch fun k hk => owns_dir ?_ hk
  simp only [entrySize]
  omega

lemma walkParents_inside : ∀ (ho curr : ℕ) {m : TableMem}, Inside p m →
    Inside p (walkParents sb p ho curr m).2
  | 0, _, _, h => h
  | ho + 1, curr, m, h => by
    unfold walkParents
    split_ifs with h0 hlt hb
    · exact h
    · exact h
    · exact touchEntry_inside (not_le.1 hlt) h
    · exact walkParents_inside ho _ (touchEntry_inside (not_le.1 hlt) h)

lemma validateEntry_inside {i : ℕ} (h : Inside p m) : Inside p (validateEntry sb p m i).2 := by
  unfold validateEntry
  split_ifs
  · exact h
  · exact h
  · exact h
  · exact walkParents_inside _ _ h

lemma fsValidateDirectoryTable_inside : ∀ (is : List ℕ) {m : TableMem},
    (∀ i ∈ is, i < sb.maxEntries) → Inside p m →
    Inside p (fsValidateDirectoryTable sb p is m).2
  | [], _, _, h => h
  | i :: is, m, hlt, h => by
    have hi := touchEntry_inside (hlt i mem_cons_self) h
    have hl' : ∀ j ∈ is, j < sb.maxEntries := fun j hj => hlt j (mem_cons_of_mem _ hj)
    unfold fsValidateDirectoryTable
    dsimp only
    split_ifs
    · exact fsValidateDirectoryTable_inside is hl' hi
    · exact fsValidateDirectoryTable_inside is hl' (validateEntry_inside hi)
    · exact validateEntry_inside hi

lemma send_inside {rel : ℕ} (h : Inside p m) (hr : ∀ k < 512, p.Owns (a + k)) :
    Inside p (m.send e rel a) := by
  unfold send
  dsimp only
  split
  · exact h.touch hr
  · exact h

lemma saveFat_inside (hf : ∀ i < fatSectorsFor sb.totalClusters, FullSector sb i)
    (h : Inside p m) : Inside p (saveFat e sb p m) :=
  foldl_range_inside _ (fun _ i hi hm => send_inside hm fun _ hk => owns_fat (hf i hi) hk) h

lemma saveDirectory_inside (h : Inside p m) : Inside p (saveDirectory e sb p m) := by
  refine foldl_range_inside _ (fun m i hi hm => ?_) h
  have := hm.touch fun k hk => @owns_dirSector sb p i k hi hk
  dsimp only
  split
  · exact this
  · exact this

end Inside

section Mount

variable {e : Env} {d : Partition} {sb : Superblock} {p : TableBlocks sb} {m : TableMem}
  {mem : ℕ → UInt8} {disk : ℕ → Buf}

def TablesReadable (d : Partition) (sb : Superblock) : Prop :=
  (∀ i < dirSectorsFor sb.maxEntries, d.onDevice (sb.dirStart + i)) ∧
    ∀ i < fatSectorsFor sb.totalClusters, d.onDevice (sb.fatStart + i)

lemma loadDir_mounted : ∀ (is : List ℕ) {m : TableMem},
    (loadDir e d sb p is m).2.mounted = m.mounted
  | [], _ => rfl
  | i :: is, m => by
    unfold loadDir
    split_ifs
    · exact loadDir_mounted is
    · rfl

lemma loadFat_mounted : ∀ (is : List ℕ) {m : TableMem},
    (loadFat e d sb p is m).2.mounted = m.mounted
  | [], _ => rfl
  | i :: is, m => by
    unfold loadFat
    split_ifs
    · split
      · exact loadFat_mounted is
      · rfl
    · rfl

lemma start_inside : Inside p ⟨mem, disk, [], false⟩ := by
  simp [Inside]

lemma loadDir_start_inside : Inside p (loadDir e d sb p (range (dirSectorsFor sb.maxEntries))
    (zeroTables sb p ⟨mem, disk, [], false⟩)).2 :=
  loadDir_inside _ (fun _ hi => mem_range.1 hi) (zeroTables_inside start_inside)

lemma initFsTables_inside (hm : sb.totalClusters % 128 = 0) :
    Inside p (initFsTables e d sb p mem disk) := by
  have hf : ∀ i < fatSectorsFor sb.totalClusters, FullSector sb i := fun i hi =>
    fullSector_of_dvd hm hi
  have hfa := @loadFat_inside e d sb p (range (fatSectorsFor sb.totalClusters)) _
    (fun i hi => hf i (mem_range.1 hi)) (@loadDir_start_inside e d sb p mem disk)
  have hv := @fsValidateDirectoryTable_inside sb p (range sb.maxEntries) _
    (fun i hi => mem_range.1 hi) (reserveClusters_inside hfa)
  unfold initFsTables
  dsimp only
  split_ifs
  · exact start_inside
  · exact loadDir_start_inside
  · exact hfa
  · exact hv
  · exact saveFat_inside hf hv

lemma range_split {i n : ℕ} (hi : i < n) : ∃ js, range n = range i ++ i :: js := by
  refine ⟨(range (n - (i + 1))).map (i + 1 + ·), ?_⟩
  have hn : n = i + 1 + (n - (i + 1)) := by omega
  conv_lhs => rw [hn, range_add, range_succ]
  simp

lemma loadFat_refused {i : ℕ} (hi : i < fatSectorsFor sb.totalClusters)
    (ho : ¬ d.onDevice (sb.fatStart + i)) (h : Inside p m) :
    (loadFat e d sb p (range (fatSectorsFor sb.totalClusters)) m).1 = false ∧
      Inside p (loadFat e d sb p (range (fatSectorsFor sb.totalClusters)) m).2 := by
  obtain ⟨js, hjs⟩ := range_split hi
  rw [hjs]
  refine loadFat_stops ho _ (fun j hj => fullSector_of_lt ?_) h
  have := mem_range.1 hj
  omega

lemma initFsTables_refused (h : sb.maxEntries = 0 ∨ ¬ TablesReadable d sb) :
    (initFsTables e d sb p mem disk).mounted = false ∧
      Inside p (initFsTables e d sb p mem disk) := by
  have hdir := @loadDir_start_inside e d sb p mem disk
  have hd := @loadDir_mounted e d sb p (range (dirSectorsFor sb.maxEntries))
    (zeroTables sb p ⟨mem, disk, [], false⟩)
  unfold initFsTables
  dsimp only
  by_cases halloc : fsTablesAlloc sb.maxEntries sb.totalClusters e.kmallocOk = .ok
  · have hne : sb.maxEntries ≠ 0 := by
      intro h0
      simp [fsTablesAlloc, h0] at halloc
    rw [if_neg (not_not.2 halloc)]
    by_cases hl : (loadDir e d sb p (range (dirSectorsFor sb.maxEntries))
        (zeroTables sb p ⟨mem, disk, [], false⟩)).1 = true
    · -- the directory table was read in full, so a sector of the other table is beyond the device
      obtain ⟨i, hi, ho⟩ : ∃ i, i < fatSectorsFor sb.totalClusters ∧
          ¬ d.onDevice (sb.fatStart + i) := by
        by_contra ha
        push Not at ha
        refine h.resolve_left hne ⟨fun i hi => ?_, ha⟩
        by_contra ho
        rw [loadDir_stops ho _ (mem_range.2 hi)] at hl
        exact absurd hl (by decide)
      obtain ⟨hst, hin⟩ := @loadFat_refused e d sb p _ i hi ho hdir
      rw [hl, hst]
      exact ⟨(loadFat_mounted _).trans hd, hin⟩
    · rw [Bool.not_eq_true] at hl
      rw [hl]
      exact ⟨hd, hdir⟩
  · rw [if_pos halloc]
    exact ⟨rfl, start_inside⟩

lemma tableRun_unmounted (h : m.mounted = false) :
    ∀ (ops : List (Env × TableOp)), tableRun sb p m ops = m
  | [] => rfl
  | op :: ops => by
    have hs : tableStep sb p m op = m := by simp [tableStep, h]
    unfold tableRun
    rw [foldl_cons, hs]
    exact tableRun_unmounted h ops

lemma tableRun_inside (hm : sb.totalClusters % 128 = 0) (ops : List (Env × TableOp))
    (h : Inside p m) : Inside p (tableRun sb p m ops) := by
  refine Lib.foldl_invariant (fun m op h => ?_) ops h
  unfold tableStep
  split_ifs
  · exact h
  obtain ⟨e, op⟩ := op
  cases op with
  | setDirByte k v =>
    dsimp only
    split_ifs <;> exact h
  | setFatByte k v =>
    dsimp only
    split_ifs <;> exact h
  | other a v =>
    dsimp only
    split_ifs <;> exact h
  | saveFat => exact saveFat_inside (fun i hi => fullSector_of_dvd hm hi) h
  | saveDirectory => exact saveDirectory_inside h

lemma tablesFit_of_dvd (hm : sb.totalClusters % 128 = 0) : TablesFit d sb where
  inside e p mem disk ops := tableRun_inside hm ops (initFsTables_inside hm)
  entriesOnly e e' p p' mem mem' disk disk' ops ops' := by
    intro m m' _ _ hsame i hi j hj
    have := fullSector_of_dvd hm hi
    have hk := hsame (i * 512 + j) (by unfold FullSector at this; omega)
    unfold fatSector
    rwa [add_assoc, add_assoc]

lemma tablesFit_of_refused (h : sb.maxEntries = 0 ∨ ¬ TablesReadable d sb) :
    TablesFit d sb where
  inside e p mem disk ops := by
    obtain ⟨hm, hi⟩ := @initFsTables_refused e d sb p mem disk h
    rw [tableRun_unmounted hm]
    exact hi
  entriesOnly e e' p p' mem mem' disk disk' ops ops' := by
    intro m m' hm
    obtain ⟨hu, -⟩ := @initFsTables_refused e d sb p mem disk h
    have hr : m.mounted = false := by
      rw [show m = initFsTables e d sb p mem disk from tableRun_unmounted hu ops]
      exact hu
    exact absurd (hm.symm.trans hr) (by decide)

end Mount

section Loaded

variable {e : Env} {d : Partition} {sb : Superblock} {p : TableBlocks sb} {m : TableMem}
  {mem : ℕ → UInt8} {disk : ℕ → Buf}

def TableMem.fill (base : ℕ) (size rel : ℕ → ℕ) (is : List ℕ) (m : TableMem) : TableMem :=
  is.foldl (fun (m : TableMem) i => m.store (base + i * 512) (size i) (m.disk (rel i))) m

lemma TableMem.store_mem (m : TableMem) (a n : ℕ) (bytes : Buf) (k : ℕ) :
    (m.store a n bytes).mem k = if a ≤ k ∧ k < a + n then bytes (k - a) else m.mem k := rfl

lemma loadDir_eq (he : ∀ r, e.readFault r = none) : ∀ (is : List ℕ) {m : TableMem},
    (∀ i ∈ is, d.onDevice (sb.dirStart + i)) → loadDir e d sb p is m =
      (true, m.fill p.dirTable (dirCopySize sb) (fun i => u32 (sb.dirStart + i)) is)
  | [], _, _ => rfl
  | i :: is, m, h => by
    rw [loadDir, if_pos ⟨h i mem_cons_self, he _⟩]
    exact loadDir_eq he is fun j hj => h j (mem_cons_of_mem _ hj)

lemma loadFat_eq (he : ∀ r, e.readFault r = none) : ∀ (is : List ℕ) {m : TableMem},
    (∀ i ∈ is, d.onDevice (sb.fatStart + i)) → loadFat e d sb p is m =
      (true, m.fill p.fat (fun _ => 512) (fun i => u32 (sb.fatStart + i)) is)
  | [], _, _ => rfl
  | i :: is, m, h => by
    rw [loadFat, if_pos (h i mem_cons_self), he]
    exact loadFat_eq he is fun j hj => h j (mem_cons_of_mem _ hj)

lemma TableMem.fill_succ (base : ℕ) (size rel : ℕ → ℕ) (n : ℕ) (m : TableMem) :
    m.fill base size rel (range (n + 1)) = (m.fill base size rel (range n)).store
      (base + n * 512) (size n) ((m.fill base size rel (range n)).disk (rel n)) := by
  simp [fill, range_succ]

lemma TableMem.fill_disk (base : ℕ) (size rel : ℕ → ℕ) (m : TableMem) :
    ∀ n, (m.fill base size rel (range n)).disk = m.disk
  | 0 => rfl
  | n + 1 => by
    rw [fill_succ]
    exact fill_disk base size rel m n

/-- Byte by byte, what a fill of whole sectors leaves in memory. -/
lemma TableMem.fill_mem {base : ℕ} {size rel : ℕ → ℕ} (hs : ∀ i, size i ≤ 512)
    (m : TableMem) (a : ℕ) : ∀ n, (m.fill base size rel (range n)).mem a =
      if base ≤ a ∧ (a - base) / 512 < n ∧ (a - base) % 512 < size ((a - base) / 512) then
        m.disk (rel ((a - base) / 512)) ((a - base) % 512)
      else m.mem a
  | 0 => by simp [fill]
  | n + 1 => by
    have hn := hs n
    rw [fill_succ, store_mem, fill_disk, fill_mem hs m a n]
    by_cases hl : base + n * 512 ≤ a ∧ a < base + n * 512 + size n
    · have hq : (a - base) / 512 = n := by omega
      have hr : a - (base + n * 512) = (a - base) % 512 := by omega
      rw [if_pos hl, if_pos ⟨by omega, by omega, by rw [hq]; omega⟩, hq, hr]
    · rw [if_neg hl]
      refine if_congr ?_ rfl rfl
      constructor
      · rintro ⟨h1, h2, h3⟩
        exact ⟨h1, by omega, h3⟩
      · rintro ⟨h1, h2, h3⟩
        by_contra hge
        have hq : (a - base) / 512 = n := by omega
        rw [hq] at h3
        omega

lemma dirCopySize_le_sector (i : ℕ) : dirCopySize sb i ≤ 512 := by
  unfold dirCopySize
  split_ifs <;> omega

lemma dirCopySize_covers {k : ℕ} (hk : k < sb.maxEntries * entrySize) :
    k / 512 < dirSectorsFor sb.maxEntries ∧ k % 512 < dirCopySize sb (k / 512) := by
  unfold dirSectorsFor dirCopySize
  split_ifs with hl
  · simp only [entrySize] at *
    omega
  · omega

def TableMem.reserve (base c : ℕ) (m : TableMem) : TableMem :=
  (range c).foldl (fun m i => m.store (base + i * 4) 4 fun _ => 255) m

lemma TableMem.reserve_succ (base c : ℕ) (m : TableMem) :
    m.reserve base (c + 1) = (m.reserve base c).store (base + c * 4) 4 fun _ => 255 := by
  simp [reserve, range_succ]

lemma TableMem.reserve_mem (base : ℕ) (m : TableMem) (a : ℕ) : ∀ c,
    (m.reserve base c).mem a = if base ≤ a ∧ a < base + c * 4 then 255 else m.mem a
  | 0 => by
    rw [if_neg (by omega)]
    rfl
  | c + 1 => by
    rw [reserve_succ, store_mem, reserve_mem base m a c]
    split_ifs <;> first | rfl | omega

lemma touchEntries_eq : ∀ (is : List ℕ) {m : TableMem}, (∀ i ∈ is, entryUsed sb p m i = 0) →
    (fsValidateDirectoryTable sb p is m).1 = true ∧
      (fsValidateDirectoryTable sb p is m).2.mem = m.mem
  | [], _, _ => ⟨rfl, rfl⟩
  | i :: is, m, h => by
    rw [fsValidateDirectoryTable, if_pos (h i mem_cons_self)]
    exact touchEntries_eq is fun j hj => h j (mem_cons_of_mem _ hj)

lemma saveFat_mem :
    (saveFat e sb p m).mem = m.mem ∧ (saveFat e sb p m).mounted = m.mounted := by
  have hs : ∀ (m' : TableMem) (i : ℕ), m'.mem = m.mem ∧ m'.mounted = m.mounted →
      (m'.send e (sb.fatStart + i) (p.fat + i * 512)).mem = m.mem ∧
        (m'.send e (sb.fatStart + i) (p.fat + i * 512)).mounted = m.mounted := by
    intro m' i h
    unfold send
    dsimp only
    split
    · exact h
    · exact h
  exact Lib.foldl_invariant hs _ ⟨rfl, rfl⟩

lemma initFsTables_loads (halloc : fsTablesAlloc sb.maxEntries sb.totalClusters e.kmallocOk = .ok)
    (he : ∀ r, e.readFault r = none) (hr : TablesReadable d sb)
    (hp : p.dirTable + sb.maxEntries * entrySize ≤ p.fat)
    (hem : ∀ i < sb.maxEntries, disk (u32 (sb.dirStart + (i * entrySize + 95) / 512))
      ((i * entrySize + 95) % 512) = 0) :
    (initFsTables e d sb p mem disk).mounted = true ∧
      ∀ k < fatSectorsFor sb.totalClusters * 512, (initFsTables e d sb p mem disk).mem (p.fat + k) =
        if k < min fsFirstDataCluster sb.totalClusters * 4 then 255
        else disk (u32 (sb.fatStart + k / 512)) (k % 512) := by
  obtain ⟨m1, hm1⟩ : ∃ m1, m1 = (zeroTables sb p ⟨mem, disk, [], false⟩).fill p.dirTable
      (dirCopySize sb) (fun i => u32 (sb.dirStart + i))
      (range (dirSectorsFor sb.maxEntries)) := ⟨_, rfl⟩
  obtain ⟨m2, hm2⟩ : ∃ m2, m2 = (m1.fill p.fat (fun _ => 512) (fun i => u32 (sb.fatStart + i))
      (range (fatSectorsFor sb.totalClusters))).reserve p.fat
        (min fsFirstDataCluster sb.totalClusters) := ⟨_, rfl⟩
  have hd : m1.disk = disk := by
    rw [hm1, fill_disk]
    rfl
  have hm : ∀ a, m2.mem a = if p.fat ≤ a ∧ a < p.fat + min fsFirstDataCluster sb.totalClusters * 4
      then 255 else if p.fat ≤ a ∧ (a - p.fat) / 512 < fatSectorsFor sb.totalClusters ∧
        (a - p.fat) % 512 < 512 then disk (u32 (sb.fatStart + (a - p.fat) / 512))
          ((a - p.fat) % 512)
      else m1.mem a := by
    intro a
    rw [hm2, reserve_mem, fill_mem (fun _ => le_rfl), hd]
  -- no entry is in use after the load
  have hu : ∀ i ∈ range sb.maxEntries, entryUsed sb p m2 i = 0 := by
    intro i hi
    have hi := mem_range.1 hi
    have hk : i * entrySize + 95 < sb.maxEntries * entrySize := by
      simp only [entrySize]
      omega
    obtain ⟨hse, ho⟩ := dirCopySize_covers hk
    have hb : m2.mem (p.dirTable + i * entrySize + 95) = 0 := by
      rw [add_assoc, hm, if_neg (by omega), if_neg (by omega), hm1,
        fill_mem dirCopySize_le_sector, Nat.add_sub_cancel_left,
        if_pos ⟨by omega, hse, ho⟩]
      exact hem i hi
    simp [entryUsed, entryField, hb]
  obtain ⟨hva, hv⟩ := @touchEntries_eq sb p (range sb.maxEntries) _ hu
  have hin : initFsTables e d sb p mem disk = saveFat e sb p
      { (fsValidateDirectoryTable sb p (range sb.maxEntries) m2).2 with mounted := true } := by
    unfold initFsTables
    have hok : ¬ (!true) = true := by decide
    rw [if_neg (not_not.2 halloc), loadDir_eq he _ fun i hi => hr.1 i (mem_range.1 hi), ← hm1]
    rw [if_neg hok, loadFat_eq he _ fun i hi => hr.2 i (mem_range.1 hi)]
    dsimp only
    rw [if_neg hok,
      show reserveClusters sb p (m1.fill p.fat (fun _ => 512) (fun i => u32 (sb.fatStart + i))
        (range (fatSectorsFor sb.totalClusters))) = m2 from hm2.symm, hva]
    rfl
  obtain ⟨hsm, hs⟩ := @saveFat_mem e sb p
    { (fsValidateDirectoryTable sb p (range sb.maxEntries) m2).2 with mounted := true }
  rw [hin]
  refine ⟨hs, fun k hk => ?_⟩
  rw [hsm]
  rw [hv, hm, Nat.add_sub_cancel_left]
  refine if_congr (by omega) rfl ?_
  rw [if_pos ⟨by omega, by omega, by omega⟩]

end Loaded

section Tail

variable {d : Partition} {sb : Superblock}

def fatTail (sb : Superblock) : ℕ :=
  (fatSectorsFor sb.totalClusters - 1) * 512 + 510

def tailDisk (sb : Superblock) (v : UInt8) : ℕ → Buf :=
  fun rel k => if rel = u32 (sb.fatStart + fatTail sb / 512) ∧ k = 510 then v else 0

/-- Two blocks one after the other; `kmalloc` puts a header of 32 bytes before each. -/
def tailBlocks (sb : Superblock) : TableBlocks sb where
  dirTable := 32
  fat := 32 + kmallocBytes (sb.maxEntries * entrySize) + 32
  disjoint := .inl (Nat.le_add_right _ 32)

lemma fatTail_past (hm : sb.totalClusters % 128 ≠ 0) :
    sb.totalClusters * 4 ≤ fatTail sb ∧ fatTail sb < fatSectorsFor sb.totalClusters * 512 ∧
      fatTail sb % 512 = 510 := by
  unfold fatTail fatSectorsFor
  omega

lemma initFsTables_tail (h : loadSuperblock d sb = true) (hne : sb.maxEntries ≠ 0)
    (hr : TablesReadable d sb) (mem : ℕ → UInt8) (v : UInt8) :
    (initFsTables plain d sb (tailBlocks sb) mem (tailDisk sb v)).mounted = true ∧
      ∀ k < fatSectorsFor sb.totalClusters * 512,
        (initFsTables plain d sb (tailBlocks sb) mem (tailDisk sb v)).mem
          ((tailBlocks sb).fat + k) =
        if k < min fsFirstDataCluster sb.totalClusters * 4 then 255
        else tailDisk sb v (u32 (sb.fatStart + k / 512)) (k % 512) := by
  refine initFsTables_loads ?_ (fun _ => rfl) hr ?_ ?_
  · have hc : sb.maxEntries ≤ fsMaxEntriesCap ∧ sb.totalClusters ≠ 0 ∧
        sb.totalClusters ≤ fsMaxClustersCap := by
      simp [loadSuperblock] at h
      omega
    simp [fsTablesAlloc, plain, hne, hc]
  · have := @le_kmallocBytes (sb.maxEntries * entrySize)
    show 32 + _ ≤ 32 + _ + 32
    omega
  · -- an entry's is_used byte has an odd offset, the byte of the tail an even one
    intro i _
    have ho : (i * entrySize + 95) % 512 ≠ 510 := by
      simp only [entrySize]
      omega
    simp [tailDisk, ho]

/-- Two disks that differ in the last bytes of the table sector have the same entries, and are
written back differently. -/
lemma not_tablesFit (h : loadSuperblock d sb = true) (hm : sb.totalClusters % 128 ≠ 0)
    (hne : sb.maxEntries ≠ 0) (hr : TablesReadable d sb) : ¬ TablesFit d sb := by
  intro hf
  have hc : sb.totalClusters ≤ 262144 := by
    simp [loadSuperblock, fsMaxClustersCap] at h
    omega
  obtain ⟨hp, hs, hof⟩ := fatTail_past hm
  obtain ⟨hm0, hme⟩ := initFsTables_tail h hne hr (fun _ => 0) 0
  obtain ⟨hm1, hmem1⟩ := initFsTables_tail h hne hr (fun _ => 0) 1
  -- the two mounts agree on the entries
  have hsame : ∀ k < sb.totalClusters * 4, tailDisk sb 0 (u32 (sb.fatStart + k / 512)) (k % 512) =
      tailDisk sb 1 (u32 (sb.fatStart + k / 512)) (k % 512) := by
    intro k hk
    have ho : ¬ (u32 (sb.fatStart + k / 512) = u32 (sb.fatStart + fatTail sb / 512) ∧
        k % 512 = 510) := by
      rintro ⟨hrl, hb⟩
      unfold u32 at hrl
      unfold fatTail fatSectorsFor at *
      omega
    simp only [tailDisk, if_neg ho]
  have hbytes := hf.entriesOnly plain plain (tailBlocks sb) (tailBlocks sb) (fun _ => 0)
    (fun _ => 0) (tailDisk sb 0) (tailDisk sb 1) [] [] hm0 hm1 (fun k hk => by
      rw [tableRun, tableRun, foldl_nil, foldl_nil, hme k (by omega),
        hmem1 k (by omega), hsame k hk]) (fatTail sb / 512) (by omega) 510 (by omega)
  -- and differ in the byte past them
  have ht : (tailBlocks sb).fat + fatTail sb / 512 * 512 + 510 =
      (tailBlocks sb).fat + fatTail sb := by omega
  have hre : ¬ fatTail sb < min fsFirstDataCluster sb.totalClusters * 4 := by omega
  simp only [fatSector, tableRun, foldl_nil] at hbytes
  rw [ht, hme _ hs, hmem1 _ hs, if_neg hre, if_neg hre] at hbytes
  simp only [tailDisk, hof, and_self, if_true] at hbytes
  exact absurd hbytes (by decide)

/-- The tables fit their blocks exactly when the allocation table fills its last sector, or the
mount never gets that far. -/
theorem tablesFit_iff (d : Partition) (sb : Superblock) (h : loadSuperblock d sb = true) :
    TablesFit d sb ↔
      sb.totalClusters % 128 = 0 ∨ sb.maxEntries = 0 ∨ ¬ TablesReadable d sb := by
  constructor
  · intro hfit
    by_contra hno
    push Not at hno
    exact not_tablesFit h hno.1 hno.2.1 hno.2.2 hfit
  · rintro (hmod | hrefused)
    · exact tablesFit_of_dvd hmod
    · exact tablesFit_of_refused hrefused

def smallSuperblock (clusters : ℕ) : Superblock where
  magic := fsSuperMagic
  formatVersion := fsFormatVersion
  sectorSize := 512
  totalSectors := 2000
  dirStart := 1
  dirSectors := 1
  maxEntries := 1
  entrySize := entrySize
  clusterSectors := fsClusterSectors
  fatStart := 2
  dataStart := 3
  totalClusters := clusters
  flags := 0

def smallPartition : Partition := ⟨0, 2000, 2000⟩

theorem tablesFit_full_sector : loadSuperblock smallPartition (smallSuperblock 128) = true ∧
    TablesFit smallPartition (smallSuperblock 128) :=
  ⟨by decide, (tablesFit_iff _ _ (by decide)).2 (.inl (by decide))⟩

/-- With 100 clusters the block has 400 bytes, and the mount writes 512. -/
theorem tables_overrun : loadSuperblock smallPartition (smallSuperblock 100) = true ∧
    ¬ (tailBlocks (smallSuperblock 100)).Owns ((tailBlocks (smallSuperblock 100)).fat + 400) ∧
    (initFsTables plain smallPartition (smallSuperblock 100) (tailBlocks _) (fun _ => 7)
      fun _ _ => 0).mem ((tailBlocks (smallSuperblock 100)).fat + 400) = 0 ∧
    ¬ TablesFit smallPartition (smallSuperblock 100) := by
  have hacc : loadSuperblock smallPartition (smallSuperblock 100) = true := by decide
  have hout : ¬ (tailBlocks (smallSuperblock 100)).Owns
      ((tailBlocks (smallSuperblock 100)).fat + 400) := by decide
  have hsector : ((tailBlocks (smallSuperblock 100)).fat, 512) ∈
      (initFsTables plain smallPartition (smallSuperblock 100) (tailBlocks _) (fun _ => 7)
        fun _ _ => 0).touched := by decide +kernel
  refine ⟨hacc, hout, by decide +kernel, fun hfit => hout ?_⟩
  exact hfit.inside plain (tailBlocks _) (fun _ => 7) (fun _ _ => 0) [] _ hsector 400 (by decide)

end Tail

end EsdumanOS
