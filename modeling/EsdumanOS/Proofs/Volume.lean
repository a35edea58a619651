import EsdumanOS.Volume

/-!
# The allocator and the table writes

Writing a table out offers each of its sectors once (`saveFatToDisk_eq`, `saveDirectoryToDisk_eq`).
The allocator links the first free clusters into a chain and touches no other, or leaves the volume
as it was (`allocateFatChain_links`, `allocateFatChain_none`).
-/

namespace EsdumanOS

open Lib List Function

variable {s : Fs}

structure Agree (s t : Fs) : Prop where
  geo : s.geo = t.geo
  mounted : s.mounted = t.mounted
  dirTable : s.dirTable = t.dirTable
  fat : s.fat = t.fat
  disk : ∀ r, t.geo.dataStart ≤ r → s.disk r = t.disk r

namespace Agree

variable {s t u : Fs}

lemma refl (s : Fs) : Agree s s := ⟨rfl, rfl, rfl, rfl, fun _ _ => rfl⟩

lemma trans (h : Agree s t) (h' : Agree t u) : Agree s u where
  geo := h.geo.trans h'.geo
  mounted := h.mounted.trans h'.mounted
  dirTable := h.dirTable.trans h'.dirTable
  fat := h.fat.trans h'.fat
  disk r hr := (h.disk r (h'.geo ▸ hr)).trans (h'.disk r hr)

end Agree

section Writes

variable (e : Env)

lemma fsWriteSector_disk (s : Fs) (rel : ℕ) (b : Buf) :
    (fsWriteSector e s rel b).2.disk =
      if e.writeStatus rel b = .ok then update s.disk rel b else s.disk := by
  unfold fsWriteSector
  split <;> simp_all

lemma fsWriteSector_eq (s : Fs) (rel : ℕ) (b : Buf) :
    (fsWriteSector e s rel b).2 = s.setDisk (fsWriteSector e s rel b).2.disk := by
  unfold fsWriteSector
  split <;> rfl

lemma fsWriteSector_agrees {rel : ℕ} (b : Buf) (h : rel < s.geo.dataStart) :
    Agree (fsWriteSector e s rel b).2 s := by
  rw [fsWriteSector_eq]
  refine ⟨rfl, rfl, rfl, rfl, fun r hr => ?_⟩
  have hne : r ≠ rel := by omega
  rw [fsWriteSector_disk]
  split_ifs <;> simp [hne]

lemma foldl_write_agrees {sector : Fs → ℕ → ℕ} {buffer : Fs → ℕ → Buf} :
    ∀ (is : List ℕ) {s : Fs}, (∀ t : Fs, t.geo = s.geo → ∀ i ∈ is, sector t i < t.geo.dataStart) →
      Agree (is.foldl (fun t i => (fsWriteSector e t (sector t i) (buffer t i)).2) s) s
  | [], s, _ => .refl s
  | i :: is, s, h => by
    have h1 := fsWriteSector_agrees e (buffer s i) (h s rfl i (mem_cons_self ..))
    refine (foldl_write_agrees is fun t ht j hj => ?_).trans h1
    exact h t (ht.trans h1.geo) j (mem_cons_of_mem _ hj)

def landed (disk : ℕ → Buf) (r : ℕ) (b : Buf) : Buf :=
  if e.writeStatus r b = .ok then b else disk r

def regionLanded (disk : ℕ → Buf) (base n : ℕ) (f : ℕ → Buf) : ℕ → Buf := fun r =>
  if base ≤ r ∧ r < base + n then landed e disk r (f (r - base)) else disk r

lemma fsWriteSector_landed (s : Fs) (rel : ℕ) (b : Buf) :
    (fsWriteSector e s rel b).2 =
      s.setDisk (update s.disk rel (landed e s.disk rel b)) := by
  rw [fsWriteSector_eq, fsWriteSector_disk]
  split_ifs with h <;> simp [landed, h]

lemma foldl_write_region {base : ℕ} {f : ℕ → Buf} {step : Fs → ℕ → Fs}
    (hs : ∀ disk i, step (s.setDisk disk) i =
      (fsWriteSector e (s.setDisk disk) (base + i) (f i)).2) :
    ∀ n, (range n).foldl step s = s.setDisk (regionLanded e s.disk base n f)
  | 0 => by
    have h : regionLanded e s.disk base 0 f = s.disk := by
      funext r
      exact if_neg (by omega)
    rw [h]
    rfl
  | n + 1 => by
    rw [range_succ, foldl_append, foldl_write_region hs n, foldl_cons,
      foldl_nil, hs, fsWriteSector_landed]
    refine congrArg s.setDisk ?_
    funext r
    by_cases hr : r = base + n
    · subst hr
      simp [regionLanded, landed]
    · rw [update_of_ne hr]
      simp only [regionLanded, Fs.setDisk_disk]
      congr 1
      exact propext (by omega)

def fatChunk (fat : ℕ → ℕ) (i : ℕ) : Buf := fun j => fatByte fat (i * 512 + j)

def dirChunk (g : Geometry) (table : ℕ → DirEntry) (i : ℕ) : Buf := fun j =>
  if j < (if i * 512 + 512 > entrySize * g.maxEntries then entrySize * g.maxEntries % 512
    else 512) then dirByte table (i * 512 + j) else 0

lemma saveFatToDisk_eq (s : Fs) :
    saveFatToDisk e s = s.setDisk (regionLanded e s.disk s.geo.fatStart
      (fatSectorsFor s.geo.totalClusters) (fatChunk s.fat)) :=
  foldl_write_region e (fun _ _ => rfl) _

lemma saveDirectoryToDisk_eq (s : Fs) :
    saveDirectoryToDisk e s = s.setDisk (regionLanded e s.disk s.geo.dirStart
      (dirSectorsFor s.geo.maxEntries) (dirChunk s.geo s.dirTable)) :=
  foldl_write_region e (fun _ _ => rfl) _

lemma regionLanded_agrees (s : Fs) {base n : ℕ} (f : ℕ → Buf) (h : base + n ≤ s.geo.dataStart) :
    Agree (s.setDisk (regionLanded e s.disk base n f)) s :=
  ⟨rfl, rfl, rfl, rfl, fun _ _ => if_neg (by omega)⟩

lemma saveFatToDisk_agrees (s : Fs) : Agree (saveFatToDisk e s) s := by
  rw [saveFatToDisk_eq]
  exact regionLanded_agrees e s _ s.geo.fat_before_data

lemma saveDirectoryToDisk_agrees (s : Fs) : Agree (saveDirectoryToDisk e s) s := by
  rw [saveDirectoryToDisk_eq]
  have := s.geo.fat_before_data
  have := s.geo.dir_before_fat
  exact regionLanded_agrees e s _ (by omega)

end Writes

section Alloc

lemma mem_dataClusters {n c : ℕ} : c ∈ dataClusters n ↔ fsFirstDataCluster ≤ c ∧ c < n := by
  simp only [dataClusters, mem_range'_1]
  omega

lemma mem_freeClusters {c : ℕ} : c ∈ freeClusters s ↔
    fsFirstDataCluster ≤ c ∧ c < s.geo.totalClusters ∧ s.fat c = fatFree := by
  simp [freeClusters, mem_dataClusters, and_assoc]

structure Linking (fat : ℕ → ℕ) (a : AllocState) (l : List ℕ) : Prop where
  linked : Linked a.fat fatEof a.startCluster l
  last : l.getLast? = if l = [] then none else some a.currentCluster
  off : ∀ x ∉ l, a.fat x = fat x
  allocated : a.allocated = l.length

variable {fat : ℕ → ℕ} {count i : ℕ} {a : AllocState} {l : List ℕ}

lemma Linking.startCluster_eq (h : Linking fat a l) : a.startCluster = fatEof ↔ l = [] := by
  have hl := h.linked
  cases l with
  | nil => exact ⟨fun _ => rfl, fun _ => hl⟩
  | cons x l => simp [hl.1, hl.2.1]

lemma Linking.step (h : Linking fat a l) (hlt : l.length < count) (hf : fat i = fatFree)
    (hi : i ∉ l) (hne : i ≠ fatEof) : Linking fat (allocStep count a i) (l ++ [i]) := by
  have hfr : a.fat i = fatFree := (h.off i hi).trans hf
  simp only [allocStep, h.allocated, hlt, if_true, hfr]
  rcases eq_nil_or_concat l with rfl | ⟨m, y, rfl⟩
  · have hs := h.startCluster_eq.2 rfl
    simp only [hs, if_true]
    refine ⟨⟨rfl, hne, update_self ..⟩, by simp, fun x hx => ?_, rfl⟩
    exact (update_of_ne (by simpa using hx) ..).trans (h.off x (by simp))
  · have hs : a.startCluster ≠ fatEof := by simp [h.startCluster_eq]
    have hy : a.currentCluster = y := by simpa using h.last.symm
    simp only [hs, if_false, concat_eq_append] at hi h ⊢
    refine ⟨?_, by simp, fun x hx => ?_, by simp⟩
    · rw [hy]
      exact h.linked.snoc hi hne
    · simp only [mem_append, mem_singleton, not_or] at hx
      exact (update_of_ne hx.2 ..).trans
        ((update_of_ne (hy ▸ hx.1.2) ..).trans (h.off x (by simpa using hx.1)))

/-- The free clusters are linked in the order they are met. -/
lemma Linking.run : ∀ {is l : List ℕ} {a : AllocState}, Linking fat a l → is.Nodup →
    (∀ i ∈ is, i ∉ l ∧ i ≠ fatEof) → l.length ≤ count →
    Linking fat (is.foldl (allocStep count) a)
      (l ++ (is.filter fun c => fat c == fatFree).take (count - l.length))
  | [], l, a, h, _, _, _ => by simpa using h
  | i :: is, l, a, h, hn, hi, hle => by
    rw [nodup_cons] at hn
    have hil := hi i (mem_cons_self ..)
    have hr : ∀ j ∈ is, j ∉ l ∧ j ≠ fatEof := fun j hj => hi j (mem_cons_of_mem _ hj)
    rw [foldl_cons]
    by_cases hlt : l.length < count
    · by_cases hf : fat i = fatFree
      · have hs := h.step hlt hf hil.1 hil.2
        have hru := Linking.run hs hn.2
          (fun j hj => ⟨by simp [(hr j hj).1, ne_of_mem_of_not_mem hj hn.1],
            (hr j hj).2⟩) (by simpa using hlt)
        have hc : count - l.length = count - (l ++ [i]).length + 1 := by
          simp only [length_append, length_singleton]
          omega
        rw [filter_cons_of_pos (by simpa using hf), hc, take_succ_cons]
        simpa using hru
      · have hs : allocStep count a i = a := by
          simp [allocStep, h.off i hil.1, hf]
        rw [hs, filter_cons_of_neg (by simpa using hf)]
        exact .run h hn.2 hr hle
    · have hs : allocStep count a i = a := by simp [allocStep, h.allocated, hlt]
      have hz : count - l.length = 0 := by omega
      have hru := Linking.run h hn.2 hr hle
      rw [hz] at hru ⊢
      simpa [hs] using hru

lemma cluster_lt_fatEof {g : Geometry} {c : ℕ} (h : c < g.totalClusters) : c < fatEof :=
  h.trans_le (g.totalClusters_le.trans (by decide))

lemma linking_search (s : Fs) (count : ℕ) :
    Linking s.fat ((dataClusters s.geo.totalClusters).foldl (allocStep count)
      ⟨s.fat, fatEof, fatEof, 0⟩) ((freeClusters s).take count) := by
  have h0 : Linking s.fat ⟨s.fat, fatEof, fatEof, 0⟩ [] := ⟨rfl, by simp, fun _ _ => rfl, rfl⟩
  refine h0.run nodup_range' (fun i hi => ⟨by simp, ?_⟩) (Nat.zero_le _)
  exact (cluster_lt_fatEof (mem_dataClusters.1 hi).2).ne

lemma allocateFatChain_links (hp : 0 < count) (hle : count ≤ (freeClusters s).length) :
    ∃ start fat, start ≠ fatFree ∧ Linked fat fatEof start ((freeClusters s).take count) ∧
      (∀ x ∉ (freeClusters s).take count, fat x = s.fat x) ∧
      ∀ e, allocateFatChain e s count = (start, saveFatToDisk e (s.setFat fat)) := by
  have h := linking_search s count
  set a := (dataClusters s.geo.totalClusters).foldl (allocStep count) ⟨s.fat, fatEof, fatEof, 0⟩
    with ha
  have hl : ((freeClusters s).take count).length = count := by simp [hle]
  refine ⟨a.startCluster, a.fat, ?_, h.linked, h.off, fun e => ?_⟩
  · have hmem : a.startCluster ∈ (freeClusters s).take count := by
      refine h.linked.head_mem ?_
      rw [ne_eq, h.startCluster_eq, ← length_eq_zero_iff, hl]
      omega
    have := (mem_freeClusters.1 (mem_of_mem_take hmem)).1
    simp only [fsFirstDataCluster, fatFree] at this ⊢
    omega
  · simp [allocateFatChain, hp.ne', ← ha, h.allocated, hle]

lemma allocateFatChain_none (e : Env) (hlt : (freeClusters s).length < count) :
    allocateFatChain e s count = (fatFree, s) := by
  have h := linking_search s count
  have ht : (freeClusters s).take count = freeClusters s := take_of_length_le hlt.le
  rw [ht] at h
  have hf : (freeClusters s).length < s.geo.totalClusters + 1 := by
    have h1 : (freeClusters s).length ≤ (dataClusters s.geo.totalClusters).length :=
      length_filter_le ..
    have h2 : (dataClusters s.geo.totalClusters).length =
        s.geo.totalClusters - fsFirstDataCluster := length_range'
    omega
  have hr := release_eq (· == fatEof) fatFree (by simp) h.linked
    (fun x hx => by
      have := cluster_lt_fatEof (mem_freeClusters.1 hx).2.1
      simp only [beq_eq_false_iff_ne]
      omega) hf
  have hfa : (fun x => if x ∈ freeClusters s then fatFree else
      ((dataClusters s.geo.totalClusters).foldl (allocStep count)
        ⟨s.fat, fatEof, fatEof, 0⟩).fat x) = s.fat := by
    funext x
    split_ifs with hx
    · exact (mem_freeClusters.1 hx).2.2.symm
    · exact h.off x hx
  have hp : count ≠ 0 := by omega
  simp only [allocateFatChain, hp, if_false, h.allocated, hlt, if_true, hr, hfa]
  rfl

end Alloc

end EsdumanOS
