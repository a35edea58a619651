import EsdumanOS.Vfs
import EsdumanOS.Proofs.Volume

/-!
# Creating a file

`fs_create_file_raw` refuses and leaves the volume as it was (`fsCreateFileRaw_refused`), or fills
in one free slot, links the first free clusters and writes the content into their sectors
(`fsCreateFileRaw_created`).
-/

namespace EsdumanOS

open Lib List

section Sectors

variable (g : Geometry)

lemma fsClusterToSector_eq {g : Geometry} {c : ℕ} (h : c < g.totalClusters) :
    fsClusterToSector g c = g.dataStart + c * fsClusterSectors := by
  have := g.data_lt
  have hc : c * fsClusterSectors ≤ g.totalClusters * fsClusterSectors := Nat.mul_le_mul_right _ h.le
  rw [fsClusterToSector, u32_of_lt (show c * fsClusterSectors < 2 ^ 32 by omega),
    u32_of_lt (by omega)]

def InClusters (l : List ℕ) (r : ℕ) : Prop :=
  ∃ c ∈ l, fsClusterToSector g c ≤ r ∧ r < fsClusterToSector g c + fsClusterSectors

lemma cluster_of_sector {g : Geometry} {c d j k : ℕ} (hc : c < g.totalClusters)
    (hd : d < g.totalClusters) (hj : j < fsClusterSectors) (hk : k < fsClusterSectors)
    (h : fsClusterToSector g c + j = fsClusterToSector g d + k) : c = d := by
  rw [fsClusterToSector_eq hc, fsClusterToSector_eq hd] at h
  simp only [fsClusterSectors] at *
  omega

lemma not_inClusters {g : Geometry} {l : List ℕ} {c k : ℕ} (hl : ∀ x ∈ l, x < g.totalClusters)
    (hc : c < g.totalClusters) (hk : k < fsClusterSectors) (h : c ∉ l) :
    ¬ InClusters g l (fsClusterToSector g c + k) := by
  rintro ⟨x, hx, h1, h2⟩
  obtain ⟨j, hj⟩ := Nat.exists_eq_add_of_le h1
  exact h (cluster_of_sector hc (hl x hx) hk (by omega) hj ▸ hx)

end Sectors

section Chunks

variable (e : Env) (content : Buf) (size : ℕ)

def sectorData (pos : ℕ) : Buf := fun i =>
  if i < min 512 (size - pos) then content (pos + i) else 0

def chunksLanded (disk : ℕ → Buf) (base pos n : ℕ) : ℕ → Buf := fun r =>
  if base ≤ r ∧ r < base + n then
    landed e disk r (sectorData content size (pos + (r - base) * 512))
  else disk r

lemma writeChunk_eq (base pos k : ℕ) (s : Fs) :
    writeChunk e content size base (s, min size pos) k =
      (s.setDisk (Function.update s.disk (base + k)
        (landed e s.disk (base + k) (sectorData content size pos))), min size (pos + 512)) := by
  have hc : (if min size pos < size then
      (if size - min size pos > 512 then 512 else size - min size pos) else 0) =
      min 512 (size - pos) := by
    split_ifs <;> omega
  have hb : (fun i => if i < min 512 (size - pos) then content (min size pos + i) else 0) =
      sectorData content size pos := by
    funext i
    simp only [sectorData]
    split_ifs with hi
    · rw [show min size pos = pos by omega]
    · rfl
  have hp : min size pos + min 512 (size - pos) = min size (pos + 512) := by omega
  simp only [writeChunk, hc, hb, hp]
  rw [fsWriteSector_landed]

lemma writeChunks_eq (base pos : ℕ) (s : Fs) : ∀ n : ℕ,
    (range n).foldl (writeChunk e content size base) (s, min size pos) =
      (s.setDisk (chunksLanded e content size s.disk base pos n), min size (pos + n * 512))
  | 0 => by
    have h : chunksLanded e content size s.disk base pos 0 = s.disk := by
      funext r
      exact if_neg (by omega)
    simp [h, Fs.setDisk]
  | n + 1 => by
    rw [range_succ, foldl_append, writeChunks_eq base pos s n, foldl_cons, foldl_nil, writeChunk_eq]
    have hp : pos + n * 512 + 512 = pos + (n + 1) * 512 := by ring
    rw [hp]
    refine congrArg (fun disk => (s.setDisk disk, _)) ?_
    funext r
    by_cases hr : r = base + n
    · subst hr
      simp [chunksLanded, landed, Fs.setDisk]
    · rw [Function.update_of_ne hr]
      simp only [chunksLanded, Fs.setDisk]
      congr 1
      exact propext (by omega)

end Chunks

section Clusters

variable {e : Env} {content : Buf} {size : ℕ}

/-- The content from `pos` on has been written into the clusters of `l`, and nowhere else. -/
structure Written (e : Env) (content : Buf) (size : ℕ) (g : Geometry) (pos : ℕ) (l : List ℕ)
    (disk disk' : ℕ → Buf) : Prop where
  outside : ∀ r, ¬ InClusters g l r → disk' r = disk r
  inside : ∀ i c, l[i]? = some c → ∀ k < fsClusterSectors,
    disk' (fsClusterToSector g c + k) = landed e disk (fsClusterToSector g c + k)
      (sectorData content size (pos + i * clusterBytes + k * 512))

lemma Written.cons {g : Geometry} {c pos : ℕ} {l : List ℕ} {disk disk' : ℕ → Buf}
    (hc : c < g.totalClusters) (hl : ∀ x ∈ l, x < g.totalClusters) (hcl : c ∉ l)
    (h : Written e content size g (pos + clusterBytes) l
      (chunksLanded e content size disk (fsClusterToSector g c) pos fsClusterSectors) disk') :
    Written e content size g pos (c :: l) disk disk' where
  outside r hr := by
    rw [h.outside r fun ⟨x, hx, hxr⟩ => hr ⟨x, mem_cons_of_mem _ hx, hxr⟩]
    exact if_neg fun hcr => hr ⟨c, mem_cons_self .., hcr⟩
  inside i x hi k hk := by
    cases i with
    | zero =>
      obtain rfl : c = x := by simpa using hi
      rw [h.outside _ (not_inClusters hl hc hk hcl), chunksLanded, if_pos (by omega),
        Nat.add_sub_cancel_left, Nat.zero_mul, Nat.add_zero]
    | succ i =>
      have hx : x ∈ l := mem_of_getElem? (by simpa using hi)
      have hp : pos + clusterBytes + i * clusterBytes = pos + (i + 1) * clusterBytes := by ring
      have hin := h.inside i x (by simpa using hi) k hk
      rw [hp] at hin
      rw [hin]
      have ho : chunksLanded e content size disk (fsClusterToSector g c) pos fsClusterSectors
          (fsClusterToSector g x + k) = disk (fsClusterToSector g x + k) := by
        refine if_neg fun hr => ?_
        obtain ⟨j, hj⟩ := Nat.exists_eq_add_of_le hr.1
        exact hcl (cluster_of_sector (hl x hx) hc hk (by omega) hj ▸ hx)
      simp only [landed, ho]

lemma writeClusters_spec : ∀ {l : List ℕ} {s : Fs} {c pos : ℕ},
    Linked s.fat fatEof c l → (∀ x ∈ l, x < s.geo.totalClusters) →
    ∃ disk', (writeClusters e content size l.length c (s, min size pos)).1 = s.setDisk disk' ∧
      Written e content size s.geo pos l s.disk disk'
  | [], s, c, pos, _, _ => ⟨s.disk, rfl, fun _ _ => rfl, fun i x hi => by simp at hi⟩
  | x :: l, s, c, pos, h, hl => by
    have hn := h.nodup
    rw [nodup_cons] at hn
    obtain ⟨rfl, hx, h⟩ := h
    have hc := hl c (mem_cons_self ..)
    have hl' : ∀ x ∈ l, x < s.geo.totalClusters := fun y hy => hl y (mem_cons_of_mem _ hy)
    simp only [length_cons, writeClusters, hx, hc.not_ge, or_self, if_false]
    rw [writeChunks_eq]
    set t := s.setDisk
      (chunksLanded e content size s.disk (fsClusterToSector s.geo c) pos fsClusterSectors) with ht
    obtain ⟨disk', heq, hw⟩ :=
      @writeClusters_spec l t (s.fat c) (pos + fsClusterSectors * 512) h hl'
    exact ⟨disk', heq, hw.cons hc hl' hn.1⟩

end Clusters

section Created

structure CreateFits (s : Fs) (name : Name) (size parentId : ℕ) : Prop where
  mounted : s.mounted = true
  length : name.length < maxFilename
  parent : fsDirExists s parentId = true
  fresh : ∀ i < s.geo.maxEntries, (s.dirTable i).named parentId name = false
  slot : (freeSlot s).isSome
  room : clustersNeeded size ≤ (freeClusters s).length

structure Created (e : Env) (s s' : Fs) (slot start : ℕ) (name : Name) (content : Buf)
    (size parentId : ℕ) : Prop where
  slot_eq : freeSlot s = some slot
  geo : s'.geo = s.geo
  mounted : s'.mounted = s.mounted
  dirTable : s'.dirTable =
    Function.update s.dirTable slot (newFileEntry e slot name start size parentId)
  start_ne : start ≠ fatFree
  linked : Linked s'.fat fatEof start (newChain s size)
  off : ∀ x ∉ newChain s size, s'.fat x = s.fat x
  outside : ∀ r, s.geo.dataStart ≤ r → ¬ InClusters s.geo (newChain s size) r →
    s'.disk r = s.disk r
  inside : ∀ i c, (newChain s size)[i]? = some c → ∀ k < fsClusterSectors,
    s'.disk (fsClusterToSector s.geo c + k) = landed e s.disk (fsClusterToSector s.geo c + k)
      (sectorData content size (i * clusterBytes + k * 512))

variable (e : Env) {s : Fs} {name : Name} (content : Buf) {size parentId : ℕ}

lemma fsCreateFileRaw_refused (h : ¬ CreateFits s name size parentId) :
    (fsCreateFileRaw e s name content size parentId).1 ≠ .ok ∧
      (fsCreateFileRaw e s name content size parentId).2 = s := by
  unfold fsCreateFileRaw
  split_ifs with h1 h2 h3 h4
  · simp
  · simp
  · simp
  · simp
  · rcases h5 : freeSlot s with _ | k
    · simp
    · have hr : (freeClusters s).length < clustersNeeded size := by
        by_contra hr
        refine h ⟨by simpa using h1, by omega, by simpa using h3, ?_, by simp [h5], by omega⟩
        simpa [lastIdx_eq_none] using h4
      simp [allocateFatChain_none e hr]

lemma mem_newChain {c : ℕ} (h : c ∈ newChain s size) :
    fsFirstDataCluster ≤ c ∧ c < s.geo.totalClusters ∧ s.fat c = fatFree :=
  mem_freeClusters.1 (mem_of_mem_take h)

lemma fsCreateFileRaw_saves (h : CreateFits s name size parentId) (hp : 0 < clustersNeeded size) :
    ∃ slot start fat, freeSlot s = some slot ∧ start ≠ fatFree ∧
      Linked fat fatEof start (newChain s size) ∧ (∀ x ∉ newChain s size, fat x = s.fat x) ∧
      ∀ e, ∃ disk', fsCreateFileRaw e s name content size parentId = (.ok, saveDirectoryToDisk e
          (((saveFatToDisk e (s.setFat fat)).setDisk disk').setEntry slot
            (newFileEntry e slot name start size parentId))) ∧
        Written e content size s.geo 0 (newChain s size) (saveFatToDisk e (s.setFat fat)).disk
          disk' := by
  obtain ⟨slot, hslot⟩ := Option.isSome_iff_exists.1 h.slot
  obtain ⟨start, fat, hne, hl, ho, halloc⟩ := allocateFatChain_links hp h.room
  refine ⟨slot, start, fat, hslot, hne, hl, ho, fun e => ?_⟩
  have hle : (newChain s size).length = clustersNeeded size := by simp [newChain, h.room]
  have ha := saveFatToDisk_agrees e (s.setFat fat)
  have hl' : Linked (saveFatToDisk e (s.setFat fat)).fat fatEof start (newChain s size) :=
    ha.fat ▸ hl
  obtain ⟨disk', hwr, hw⟩ := @writeClusters_spec e content size _
    (saveFatToDisk e (s.setFat fat)) start 0 hl' fun x hx => ha.geo ▸ (mem_newChain hx).2.1
  rw [hle, Nat.min_zero] at hwr
  have hfresh : lastIdx (fun i => (s.dirTable i).named parentId name) s.geo.maxEntries = none :=
    lastIdx_eq_none.2 h.fresh
  rw [show (saveFatToDisk e (s.setFat fat)).geo = s.geo from ha.geo] at hw
  refine ⟨disk', ?_, hw⟩
  simp [fsCreateFileRaw, h.mounted, h.length, h.parent, hfresh, hslot, halloc, hne, hwr]

lemma fsCreateFileRaw_created (h : CreateFits s name size parentId) (hp : 0 < clustersNeeded size) :
    (fsCreateFileRaw e s name content size parentId).1 = .ok ∧
      ∃ slot start, Created e s (fsCreateFileRaw e s name content size parentId).2 slot start name
        content size parentId := by
  obtain ⟨slot, start, fat, hslot, hne, hl, ho, hsa⟩ := fsCreateFileRaw_saves content h hp
  obtain ⟨disk', hres, hw⟩ := hsa e
  have ha := saveFatToDisk_agrees e (s.setFat fat)
  obtain ⟨t, ht⟩ : ∃ t, t = saveFatToDisk e (s.setFat fat) := ⟨_, rfl⟩
  rw [← ht] at hres hw ha
  rw [hres]
  refine ⟨rfl, slot, start, ?_⟩
  have hs := saveDirectoryToDisk_agrees e ((t.setDisk disk').setEntry slot
    (newFileEntry e slot name start size parentId))
  have hg : t.geo = s.geo := ha.geo
  have hd : ∀ r, s.geo.dataStart ≤ r → t.disk r = s.disk r := ha.disk
  have hf : ∀ r, s.geo.dataStart ≤ r → (saveDirectoryToDisk e ((t.setDisk disk').setEntry slot
      (newFileEntry e slot name start size parentId))).disk r = disk' r := fun r hr =>
    hs.disk r (le_of_eq_of_le (congrArg Geometry.dataStart hg) hr)
  refine
    { slot_eq := hslot
      geo := hs.geo.trans hg
      mounted := hs.mounted.trans ha.mounted
      dirTable := ?_
      start_ne := hne
      linked := hs.fat ▸ ha.fat ▸ hl
      off := fun x hx => ?_
      outside := fun r hr hin => ?_
      inside := fun i c hi k hk => ?_ }
  · rw [hs.dirTable]
    simp [ha.dirTable]
  · rw [hs.fat, ← ho x hx]
    exact congrFun ha.fat x
  · rw [hf r hr, ← hd r hr]
    exact hw.outside r hin
  · have hc := (mem_newChain (mem_of_getElem? hi)).2.1
    have hr : s.geo.dataStart ≤ fsClusterToSector s.geo c + k := by
      rw [fsClusterToSector_eq hc]
      omega
    have hin := hw.inside i c hi k hk
    rw [Nat.zero_add] at hin
    rw [hf _ hr]
    simpa only [landed, hd _ hr] using hin

end Created

end EsdumanOS
