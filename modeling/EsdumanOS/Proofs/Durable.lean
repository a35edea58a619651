import EsdumanOS.Durable
import EsdumanOS.Proofs.Replace

/-!
# When a reported success is on the disk

The operations offer every sector at most once, with bytes that do not depend on the answers
(`OneAttempt`). So tables and content are on the disk afterwards just when every sector that had to
change was taken; no status is looked at, so the result says nothing.
-/

namespace EsdumanOS

open Lib Function List Fs DirEntry

section Attempts

variable {e : Env} {s : Fs}

/-- Every sector holds what a device that takes every write would hold, or what it held. -/
def OneAttempt (s : Fs) (run : Answers → Fs) : Prop :=
  ∀ w rel, (run w).disk rel =
    if w rel ((run takesAll).disk rel) = .ok then (run takesAll).disk rel else s.disk rel

lemma landed_takesAll (e : Env) (disk : ℕ → Buf) (r : ℕ) (b : Buf) :
    landed (e.answering takesAll) disk r b = b := if_pos rfl

lemma OneAttempt.start {run : Answers → Fs} (h : ∀ w, (run w).disk = s.disk) :
    OneAttempt s run := by
  intro w rel
  rw [h, h, ite_self]

/-- A region no sector of which was offered yet is written out. -/
lemma OneAttempt.region {run run' : Answers → Fs} (h : OneAttempt s run) (e : Env) (base n : ℕ)
    (f : ℕ → Buf) (hr : ∀ w, (run' w).disk = regionLanded (e.answering w) (run w).disk base n f)
    (ho : ∀ rel, base ≤ rel → rel < base + n → (run takesAll).disk rel = s.disk rel) :
    OneAttempt s run' := by
  intro w rel
  rw [hr, hr]
  by_cases hi : base ≤ rel ∧ rel < base + n
  · simp only [regionLanded, if_pos hi, landed_takesAll]
    rw [landed, h w, ho rel hi.1 hi.2, ite_self]
    rfl
  · simp only [regionLanded, if_neg hi]
    exact h w rel

lemma OneAttempt.written {run run' : Answers → Fs} (h : OneAttempt s run) {content : Buf}
    {size : ℕ} {l : List ℕ} (hr : ∀ w, Written (e.answering w) content size s.geo 0 l (run w).disk
      (run' w).disk)
    (ho : ∀ rel, InClusters s.geo l rel → (run takesAll).disk rel = s.disk rel) :
    OneAttempt s run' := by
  intro w rel
  by_cases hin : InClusters s.geo l rel
  · have hs := hin
    obtain ⟨c, hc, hlo, hhi⟩ := hin
    obtain ⟨i, hi⟩ := mem_iff_getElem?.1 hc
    obtain ⟨k, rfl⟩ := Nat.exists_eq_add_of_le hlo
    have hk : k < fsClusterSectors := by omega
    rw [(hr w).inside i c hi k hk, (hr takesAll).inside i c hi k hk]
    rw [landed_takesAll, landed, h w, ho _ hs, ite_self]
    rfl
  · rw [(hr w).outside rel hin, (hr takesAll).outside rel hin]
    exact h w rel

/-- What had to change is there just when it was taken: this is where one attempt per sector
counts. -/
lemma OneAttempt.holds_iff {run : Answers → Fs} (h : OneAttempt s run) (w : Answers)
    (cells : ℕ → ℕ → Prop) :
    (∀ rel j, cells rel j → (run w).disk rel j = (run takesAll).disk rel j) ↔
      Takes w cells s.disk (run takesAll).disk := by
  constructor
  · rintro ha rel ⟨j, hj, hne⟩
    by_contra hrefused
    refine hne ?_
    rw [← ha rel j hj, h w, if_neg hrefused]
  · intro ht rel j hj
    rw [h w]
    split_ifs with hta
    · rfl
    · by_contra hne
      exact hta (ht rel ⟨j, hj, hne⟩)

end Attempts

section Tables

variable {s t : Fs}

structure SameTables (s t : Fs) : Prop where
  geo : s.geo = t.geo
  fat : s.fat = t.fat
  dirTable : s.dirTable = t.dirTable

lemma bytes_iff {n base : ℕ} {byte : ℕ → UInt8}
    (ht : ∀ k < n, t.disk (base + k / 512) (k % 512) = byte k) :
    (∀ k < n, s.disk (base + k / 512) (k % 512) = byte k) ↔
      ∀ rel j, (∃ k < n, rel = base + k / 512 ∧ j = k % 512) → s.disk rel j = t.disk rel j := by
  constructor
  · rintro hs rel j ⟨k, hk, rfl, rfl⟩
    rw [hs k hk, ht k hk]
  · intro hs k hk
    rw [hs _ _ ⟨k, hk, rfl, rfl⟩, ht k hk]

lemma fatOnDisk_iff (hg : s.geo = t.geo) (hf : s.fat = t.fat) (ht : FatOnDisk t) :
    FatOnDisk s ↔ ∀ rel j, FatCell t.geo rel j → s.disk rel j = t.disk rel j := by
  unfold FatOnDisk
  rw [hg, hf]
  exact bytes_iff ht

lemma dirOnDisk_iff (hg : s.geo = t.geo) (htable : s.dirTable = t.dirTable) (ht : DirOnDisk t) :
    DirOnDisk s ↔ ∀ rel j, DirCell t.geo rel j → s.disk rel j = t.disk rel j := by
  unfold DirOnDisk
  rw [hg, htable]
  exact bytes_iff ht

lemma chainOnDisk_iff (hg : s.geo = t.geo) {l : List ℕ} {content : Buf} {size : ℕ}
    (ht : ChainOnDisk t l content size) :
    ChainOnDisk s l content size ↔
      ∀ rel j, DataCell t.geo l size rel j → s.disk rel j = t.disk rel j := by
  unfold ChainOnDisk
  rw [hg]
  constructor
  · rintro hs rel j ⟨p, hp, c, hc, rfl, rfl⟩
    obtain ⟨d, hd, hs⟩ := hs p hp
    obtain ⟨d', hd', ht⟩ := ht p hp
    rw [hc, Option.some.injEq] at hd hd'
    subst hd hd'
    rw [hs, ht]
  · intro hs p hp
    obtain ⟨c, hc, ht⟩ := ht p hp
    exact ⟨c, hc, by rw [hs _ _ ⟨p, hp, c, hc, rfl, rfl⟩, ht]⟩

lemma tables_iff (h : SameTables s t) (hf : FatOnDisk t) (hd : DirOnDisk t) :
    FatOnDisk s ∧ DirOnDisk s ↔ ∀ rel j, TableCell t.geo rel j → s.disk rel j = t.disk rel j := by
  rw [fatOnDisk_iff h.geo h.fat hf, dirOnDisk_iff h.geo h.dirTable hd]
  constructor
  · rintro ⟨hf, hd⟩ rel j (hc | hc)
    · exact hf rel j hc
    · exact hd rel j hc
  · intro ha
    exact ⟨fun rel j hc => ha rel j (.inl hc), fun rel j hc => ha rel j (.inr hc)⟩

lemma region_bytes {e : Env} {disk : ℕ → Buf} {base n len k : ℕ} {f : ℕ → Buf} {byte : ℕ → UInt8}
    (ha : e.writeStatus = takesAll) (hn : len ≤ n * 512) (hk : k < len)
    (hf : f (k / 512) (k % 512) = byte k) :
    regionLanded e disk base n f (base + k / 512) (k % 512) = byte k := by
  have hi : base ≤ base + k / 512 ∧ base + k / 512 < base + n := by omega
  rw [regionLanded, if_pos hi, Nat.add_sub_cancel_left, landed, ha]
  exact hf

lemma saveFatToDisk_onDisk {e : Env} (ha : e.writeStatus = takesAll) (s : Fs) :
    FatOnDisk (saveFatToDisk e s) := by
  rw [saveFatToDisk_eq]
  intro k hk
  simp only [setDisk_geo] at hk
  refine region_bytes ha (by simp only [fatSectorsFor]; omega) hk ?_
  rw [fatChunk, Nat.div_add_mod']
  rfl

lemma saveDirectoryToDisk_onDisk {e : Env} (ha : e.writeStatus = takesAll) (s : Fs) :
    DirOnDisk (saveDirectoryToDisk e s) := by
  rw [saveDirectoryToDisk_eq]
  intro k hk
  simp only [setDisk_geo] at hk
  refine region_bytes ha (by simp only [dirSectorsFor, Nat.mul_comm]; omega) hk ?_
  have hi : k % 512 < (if k / 512 * 512 + 512 > entrySize * s.geo.maxEntries then
      entrySize * s.geo.maxEntries % 512 else 512) := by
    split_ifs <;> omega
  rw [dirChunk, if_pos hi, Nat.div_add_mod']
  rfl

lemma FatOnDisk.congr (h : FatOnDisk t) (hg : s.geo = t.geo) (hf : s.fat = t.fat)
    (hd : ∀ rel, t.geo.fatStart ≤ rel →
      rel < t.geo.fatStart + fatSectorsFor t.geo.totalClusters → s.disk rel = t.disk rel) :
    FatOnDisk s := by
  rw [fatOnDisk_iff hg hf h]
  rintro rel j ⟨k, hk, rfl, -⟩
  rw [hd _ (by omega) (by simp only [fatSectorsFor]; omega)]

end Tables

section Saves

variable {e : Env} {s : Fs} {fat : ℕ → ℕ} {table : ℕ → DirEntry} {l : List ℕ} {content : Buf}
  {size : ℕ} {run : Answers → Fs}

/-- Whatever the block layer answers, the call puts these tables into memory and writes them out. -/
def Saves (e : Env) (s : Fs) (fat : ℕ → ℕ) (table : ℕ → DirEntry) (l : List ℕ) (content : Buf)
    (size : ℕ) (run : Answers → Fs) : Prop :=
  ∀ w, ∃ disk', run w = saveDirectoryToDisk (e.answering w)
      (((saveFatToDisk (e.answering w) (s.setFat fat)).setDisk disk').setDir table) ∧
    Written (e.answering w) content size s.geo 0 l
      (saveFatToDisk (e.answering w) (s.setFat fat)).disk disk'

lemma Saves.tables (h : Saves e s fat table l content size run) (w : Answers) :
    (run w).geo = s.geo ∧ (run w).fat = fat ∧ (run w).dirTable = table := by
  obtain ⟨disk', hr, -⟩ := h w
  rw [hr, saveDirectoryToDisk_eq, saveFatToDisk_eq]
  exact ⟨rfl, rfl, rfl⟩

lemma Saves.sameTables (h : Saves e s fat table l content size run) (w w' : Answers) :
    SameTables (run w) (run w') := by
  obtain ⟨hg, hf, ht⟩ := h.tables w
  obtain ⟨hg', hf', ht'⟩ := h.tables w'
  exact ⟨hg.trans hg'.symm, hf.trans hf'.symm, ht.trans ht'.symm⟩

lemma dataStart_le_of_inClusters {g : Geometry} (hl : ∀ x ∈ l, x < g.totalClusters) {rel : ℕ}
    (h : InClusters g l rel) : g.dataStart ≤ rel := by
  obtain ⟨c, hc, hlo, -⟩ := h
  exact (dataStart_le_sector (hl c hc) 0).trans hlo

lemma Saves.oneAttempt (h : Saves e s fat table l content size run)
    (hl : ∀ x ∈ l, x < s.geo.totalClusters) : OneAttempt s run := by
  have hdir := s.geo.dir_before_fat
  have hf := s.geo.fat_before_data
  choose disk' hrun hw using h
  have h1 : OneAttempt s fun w => saveFatToDisk (e.answering w) (s.setFat fat) := by
    have h0 : OneAttempt s fun _ => s := .start fun _ => rfl
    refine h0.region e s.geo.fatStart (fatSectorsFor s.geo.totalClusters) (fatChunk fat)
      (fun w => ?_) fun rel _ _ => rfl
    rw [saveFatToDisk_eq]
    rfl
  have h2 : OneAttempt s fun w =>
      (saveFatToDisk (e.answering w) (s.setFat fat)).setDisk (disk' w) := by
    refine h1.written hw fun rel hi => ?_
    have := dataStart_le_of_inClusters hl hi
    exact (saveFatToDisk_agrees _ (s.setFat fat)).disk rel this
  refine h2.region e s.geo.dirStart (dirSectorsFor s.geo.maxEntries) (dirChunk s.geo table)
    (fun w => ?_) fun rel hlo hhi => ?_
  · rw [hrun w, saveDirectoryToDisk_eq]
    simp only [saveFatToDisk_eq]
    rfl
  · have ho : ¬ InClusters s.geo l rel := fun hi => by
      have := dataStart_le_of_inClusters hl hi
      omega
    rw [setDisk_disk, (hw takesAll).outside rel ho, saveFatToDisk_eq]
    exact if_neg (by simp only [setFat_geo]; omega)

lemma saveDirectoryToDisk_outside (e : Env) (s : Fs) {rel : ℕ} (h : s.geo.fatStart ≤ rel) :
    (saveDirectoryToDisk e s).disk rel = s.disk rel := by
  have := s.geo.dir_before_fat
  rw [saveDirectoryToDisk_eq]
  exact if_neg (by omega)

section

variable (h : Saves e s fat table l content size run)
include h

lemma Saves.onDisk (hl : ∀ x ∈ l, x < s.geo.totalClusters) :
    FatOnDisk (run takesAll) ∧ DirOnDisk (run takesAll) := by
  obtain ⟨disk', hr, hw⟩ := h takesAll
  rw [hr]
  refine ⟨?_, saveDirectoryToDisk_onDisk rfl _⟩
  have hs := saveFatToDisk_onDisk (e := e.answering takesAll) rfl (s.setFat fat)
  have ha := saveDirectoryToDisk_agrees (e.answering takesAll)
    (((saveFatToDisk (e.answering takesAll) (s.setFat fat)).setDisk disk').setDir table)
  refine hs.congr ha.geo ha.fat fun rel hlo hhi => ?_
  refine (saveDirectoryToDisk_outside _ (setDir (setDisk _ disk') table) hlo).trans ?_
  refine hw.outside rel fun hi => ?_
  have hd := dataStart_le_of_inClusters hl hi
  rw [(saveFatToDisk_agrees _ _).geo] at hhi
  have := s.geo.fat_before_data
  simp only [setFat_geo] at hhi
  omega

lemma Saves.chainOnDisk (hl : ∀ x ∈ l, x < s.geo.totalClusters)
    (hle : size ≤ l.length * clusterBytes) : ChainOnDisk (run takesAll) l content size := by
  intro p hp
  have hi : p / clusterBytes < l.length := Nat.div_lt_of_lt_mul (by rw [Nat.mul_comm]; omega)
  refine ⟨_, getElem?_eq_getElem hi, ?_⟩
  obtain ⟨c, hc⟩ : ∃ c, c = l[p / clusterBytes] := ⟨_, rfl⟩
  rw [← hc]
  have hg : l[p / clusterBytes]? = some c := by rw [hc, getElem?_eq_getElem hi]
  obtain ⟨disk', hr, hw⟩ := h takesAll
  have hd := dataStart_le_sector (hl c (mem_of_getElem? hg)) (p % clusterBytes / 512)
  have hf := s.geo.fat_before_data
  have hge := (h.tables takesAll).1
  have ha := saveFatToDisk_agrees (e.answering takesAll) (s.setFat fat)
  rw [hge, hr, saveDirectoryToDisk_outside]
  · rw [setDir_disk, setDisk_disk, hw.inside _ c hg _ (sector_lt p)]
    have hpo : 0 + p / clusterBytes * clusterBytes + p % clusterBytes / 512 * 512 + p % 512 =
        p := by
      simp only [clusterBytes, fsClusterSectors]
      omega
    have hin : p % 512 < min 512
        (size - (0 + p / clusterBytes * clusterBytes + p % clusterBytes / 512 * 512)) := by omega
    rw [landed_takesAll, sectorData, if_pos hin, hpo]
  · rw [setDir_geo, setDisk_geo, ha.geo, setFat_geo]
    omega

lemma Saves.data (w : Answers) {rel : ℕ} (hr : s.geo.dataStart ≤ rel)
    (ho : ¬ InClusters s.geo l rel) : (run w).disk rel = s.disk rel := by
  obtain ⟨disk', hru, hw⟩ := h w
  have ha := saveFatToDisk_agrees (e.answering w) (s.setFat fat)
  have hf := s.geo.fat_before_data
  rw [hru, saveDirectoryToDisk_outside]
  · exact (hw.outside rel ho).trans (ha.disk rel hr)
  · rw [setDir_geo, setDisk_geo, ha.geo, setFat_geo]
    omega

lemma Saves.tables_iff (hl : ∀ x ∈ l, x < s.geo.totalClusters) (w : Answers) :
    FatOnDisk (run w) ∧ DirOnDisk (run w) ↔
      Takes w (TableCell s.geo) s.disk (run takesAll).disk := by
  obtain ⟨hf, hd⟩ := h.onDisk hl
  rw [EsdumanOS.tables_iff (h.sameTables w takesAll) hf hd, (h.tables takesAll).1]
  exact (h.oneAttempt hl).holds_iff w _

lemma Saves.chain_iff (hl : ∀ x ∈ l, x < s.geo.totalClusters)
    (hle : size ≤ l.length * clusterBytes) (w : Answers) :
    ChainOnDisk (run w) l content size ↔
      Takes w (DataCell s.geo l size) s.disk (run takesAll).disk := by
  rw [chainOnDisk_iff (h.sameTables w takesAll).geo (h.chainOnDisk hl hle), (h.tables takesAll).1]
  exact (h.oneAttempt hl).holds_iff w _

end

end Saves

section Calls

variable {e : Env} {s : Fs} {name : Name} {parentId : ℕ}

lemma Written.nil {e : Env} {content : Buf} {size : ℕ} {g : Geometry} (disk : ℕ → Buf) :
    Written e content size g 0 [] disk disk :=
  ⟨fun _ _ => rfl, fun i c h => by simp at h⟩

lemma fsDelete_saves (h : (fsDelete e s name parentId).1 = .ok) : ∃ fat table,
    Saves e s fat table [] (fun _ => 0) 0 fun w =>
      (fsDelete (e.answering w) s name parentId).2 := by
  unfold fsDelete at h
  split_ifs at h with hm hl
  rcases hi : firstIdx (fun i => (s.dirTable i).named1 parentId name) s.geo.maxEntries with _ | i
  · rw [hi] at h
    cases h
  rw [hi] at h
  dsimp only at h
  split_ifs at h with hdir
  refine ⟨release (fun c => c == fatEof || c == fatFree || s.geo.totalClusters ≤ c) fatFree
    (s.geo.totalClusters + 1) s.fat (s.dirTable i).startCluster,
    update s.dirTable i (s.dirTable i).freed, fun w => ⟨_, ?_, .nil _⟩⟩
  have hle : ¬ .immutable ≤ (e.answering w).secLevel := hl
  simp only [fsDelete, if_neg hm, if_neg hle, hi, if_neg hdir, saveFatToDisk_eq]
  rfl

lemma fsRename_saves {newName : Name} (h : (fsRename e s name newName parentId).1 = .ok) :
    ∃ table, ∀ w, (fsRename (e.answering w) s name newName parentId).2 =
      saveDirectoryToDisk (e.answering w) (s.setDir table) := by
  unfold fsRename at h
  split_ifs at h with hm hln hl hn
  rcases hi : firstIdx (fun i => (s.dirTable i).named1 parentId name) s.geo.maxEntries with _ | i
  · rw [hi] at h
    cases h
  refine ⟨update s.dirTable i { s.dirTable i with filename := newName, ctime := e.now },
    fun w => ?_⟩
  have hle : ¬ .immutable ≤ (e.answering w).secLevel := hl
  simp only [fsRename, if_neg hm, if_neg hln, if_neg hle, if_neg hn, hi]
  rfl

lemma fsMkdir_saves (h : (fsMkdir e s name parentId).1 = .ok) :
    ∃ table, ∀ w, (fsMkdir (e.answering w) s name parentId).2 =
      saveDirectoryToDisk (e.answering w) (s.setDir table) := by
  unfold fsMkdir at h
  split_ifs at h with hm hl hln hp hn
  rcases hi : freeSlot s with _ | i
  · rw [hi] at h
    cases h
  refine ⟨update s.dirTable i (newDirEntry e i name parentId), fun w => ?_⟩
  have hle : ¬ .immutable ≤ (e.answering w).secLevel := hl
  simp only [fsMkdir, if_neg hm, if_neg hln, if_neg hle, if_neg hp, if_neg hn, hi]
  rfl

lemma fsCreateFileRaw_fits {content : Buf} {size : ℕ}
    (h : (fsCreateFileRaw e s name content size parentId).1 = .ok) :
    CreateFits s name size parentId := by
  by_contra hf
  exact (fsCreateFileRaw_refused e content hf).1 h

lemma fsCreateFileRaw_attempts {content : Buf} {size : ℕ} (hs : size + clusterBytes ≤ 2 ^ 32)
    (h : CreateFits s name size parentId) : ∃ fat table,
    Saves e s fat table (newChain s size) content size fun w =>
      (fsCreateFileRaw (e.answering w) s name content size parentId).2 := by
  have hp : 0 < clustersNeeded size := by
    rw [clustersNeeded_eq hs]
    exact clustersFor_pos size
  obtain ⟨slot, start, fat, -, -, -, -, hsa⟩ := fsCreateFileRaw_saves content h hp
  refine ⟨fat, update s.dirTable slot (newFileEntry e slot name start size parentId), fun w => ?_⟩
  obtain ⟨disk', hres, hw⟩ := hsa (e.answering w)
  refine ⟨disk', ?_, hw⟩
  simp only [hres, saveFatToDisk_eq]
  rfl

lemma savesDir_iff {table : ℕ → DirEntry} {run : Answers → Fs}
    (h : ∀ w, run w = saveDirectoryToDisk (e.answering w) (s.setDir table)) (w : Answers) :
    DirOnDisk (run w) ∧ (FatOnDisk s → FatOnDisk (run w)) ↔
      Takes w (DirCell s.geo) s.disk (run takesAll).disk := by
  have ho : OneAttempt s run := by
    have h0 : OneAttempt s fun _ => s := .start fun _ => rfl
    refine h0.region e s.geo.dirStart (dirSectorsFor s.geo.maxEntries) (dirChunk s.geo table)
      (fun w => ?_) fun rel _ _ => rfl
    rw [h w, saveDirectoryToDisk_eq]
    rfl
  have ha := fun w => saveDirectoryToDisk_agrees (e.answering w) (s.setDir table)
  have hg : ∀ w, (run w).geo = s.geo := fun w => (congrArg geo (h w)).trans (ha w).geo
  have htable : ∀ w, (run w).dirTable = table := fun w =>
    (congrArg dirTable (h w)).trans (ha w).dirTable
  have hk : FatOnDisk s → FatOnDisk (run w) := fun hs => by
    refine hs.congr (hg w) ((congrArg fat (h w)).trans (ha w).fat) fun rel hlo _ => ?_
    rw [h w]
    exact saveDirectoryToDisk_outside _ (s.setDir table) hlo
  have hal : DirOnDisk (run takesAll) := by
    rw [h takesAll]
    exact saveDirectoryToDisk_onDisk rfl _
  rw [and_iff_left hk, dirOnDisk_iff ((hg w).trans (hg takesAll).symm)
    ((htable w).trans (htable takesAll).symm) hal, hg takesAll]
  exact ho.holds_iff w _

lemma newChain_lt {size : ℕ} : ∀ x ∈ newChain s size, x < s.geo.totalClusters :=
  fun _ hx => (mem_newChain hx).2.1

lemma newChain_covers {size : ℕ} (hs : size + clusterBytes ≤ 2 ^ 32)
    (h : CreateFits s name size parentId) :
    size ≤ (newChain s size).length * clusterBytes := by
  have hl : (newChain s size).length = clustersFor size := by
    rw [← clustersNeeded_eq hs]
    simp [newChain, h.room]
  rw [hl]
  simp only [clustersFor, clusterBytes, fsClusterSectors]
  omega

lemma chainOnDisk_size {t : Fs} {content : Buf} {size : ℕ} (hs : size < 2 ^ 32)
    (h : ChainOnDisk t (newChain s size) content size) : size + clusterBytes ≤ 2 ^ 32 := by
  by_contra hb
  have hn : clustersNeeded size = 0 := by
    simp only [clustersNeeded, u32, clusterBytes, fsClusterSectors] at *
    rw [if_neg (by omega)]
    omega
  obtain ⟨c, hc, -⟩ := h 0 (by simp only [clusterBytes, fsClusterSectors] at hb; omega)
  simp [newChain, hn] at hc

end Calls

section Create

variable {e : Env} {s : Fs} {name : Name} {content : Buf} {size parentId : ℕ}

lemma createStored_iff (hsi : size < 2 ^ 32)
    (h : (fsCreateFileRaw e s name content size parentId).1 = .ok) :
    CreateStored e s name content size parentId ↔ CreateTaken e s name content size parentId := by
  have hf := fsCreateFileRaw_fits h
  unfold CreateStored CreateTaken
  by_cases hs : size + clusterBytes ≤ 2 ^ 32
  · obtain ⟨fat, table, hsa⟩ := @fsCreateFileRaw_attempts e s name parentId content size hs hf
    rw [and_iff_right hs, ← hsa.tables_iff newChain_lt e.writeStatus,
      ← hsa.chain_iff newChain_lt (newChain_covers hs hf) e.writeStatus]
    rfl
  · exact iff_of_false (fun hst => hs (chainOnDisk_size hsi hst.2)) fun ht => hs ht.1

end Create

section Update

variable {e : Env} {s : Fs} {name : Name} {content : Buf} {size parentId : ℕ}

lemma fsDelete_geo (e : Env) (s : Fs) (name : Name) (parentId : ℕ) :
    (fsDelete e s name parentId).2.geo = s.geo := by
  unfold fsDelete
  split_ifs
  · rfl
  · rfl
  · split
    · rfl
    · split_ifs
      · rfl
      · exact (saveDirectoryToDisk_agrees e _).geo.trans (saveFatToDisk_agrees e _).geo

lemma chainOnDisk_congr {t t' : Fs} {l : List ℕ} {b : Buf} {n : ℕ} (hg : t.geo = t'.geo)
    (hd : ∀ rel, t'.geo.dataStart ≤ rel → t.disk rel = t'.disk rel)
    (hl : ∀ x ∈ l, x < t'.geo.totalClusters) :
    ChainOnDisk t l b n ↔ ChainOnDisk t' l b n := by
  unfold ChainOnDisk
  rw [hg]
  refine forall₂_congr fun p _ => exists_congr fun c => and_congr_right fun hc => ?_
  rw [hd _ (dataStart_le_sector (hl c (mem_of_getElem? hc)) _)]

lemma fsDelete_swapped {e1 e' : Env} {s1 s2 s3 : Fs} {slot start n o t : ℕ} {tmp : Name}
    {b : Buf} (hfi : CreateFits s1 tmp n parentId)
    (hc : Created e1 s1 s2 slot start tmp b n parentId)
    (hs : Agree s3 (s2.setDir (swapData e' s2 o t))) (hl : ¬ .immutable ≤ e.secLevel) :
    (fsDelete e s3 tmp parentId).1 = .ok := by
  have hg : s3.geo = s1.geo := hs.geo.trans hc.geo
  have hk : ∀ {α : Type} (f : DirEntry → α),
      (∀ d c z m, f { d with startCluster := c, fileSize := z, mtime := m } = f d) →
      ∀ j, f (s3.dirTable j) = f (s2.dirTable j) := fun f hf j => by
    rw [hs.dirTable]
    exact swapData_keeps f hf j
  have hn := hk (fun d => d.named1 parentId tmp) fun _ _ _ _ => rfl
  obtain ⟨-, hslot, -⟩ := freeSlot_some hc.slot_eq
  have hfo : firstIdx (fun i => (s3.dirTable i).named1 parentId tmp) s3.geo.maxEntries =
      some slot := by
    refine firstIdx_of_unique (by rw [hg]; exact hslot) ?_ fun j hj hnj => ?_
    · rw [hn, hc.dirTable, update_self]
      simp [named1, newFileEntry]
    · -- every other entry is as it was before the creation, which found the name free
      by_contra hne
      rw [hn, hc.dirTable, update_of_ne hne] at hnj
      have hfr := hfi.fresh j (hg ▸ hj)
      simp only [named1, named, Bool.and_eq_true, beq_iff_eq] at hnj hfr
      simp [hnj.1.1, hnj.1.2, hnj.2] at hfr
  have ht : (s3.dirTable slot).fileType ≠ ftDir := by
    rw [hk fileType (fun _ _ _ _ => rfl) slot, hc.dirTable, update_self]
    simp [newFileEntry, ftRegular, ftDir]
  have hm : s3.mounted = true := (hs.mounted.trans hc.mounted).trans hfi.mounted
  simp [fsDelete, hm, hl, hfo, ht]

lemma storedForm_lt (hs : size < 2 ^ 32) {b : Buf} {n : ℕ}
    (h : storedForm e content size = some (b, n)) : n < 2 ^ 32 := by
  unfold storedForm at h
  split_ifs at h
  · simp only [Option.map_eq_some_iff, Prod.mk.injEq] at h
    obtain ⟨iv, -, -, rfl⟩ := h
    exact Nat.mod_lt _ (by decide)
  · simp only [Option.some.injEq, Prod.mk.injEq] at h
    omega

lemma forall_storedForm {P : Buf → ℕ → Prop} {b : Buf} {n : ℕ}
    (h : storedForm e content size = some (b, n)) :
    (∀ b' n', storedForm e content size = some (b', n') → P b' n') ↔ P b n := by
  refine ⟨fun ha => ha b n h, fun hp b' n' h' => ?_⟩
  rw [h, Option.some.injEq, Prod.mk.injEq] at h'
  rwa [← h'.1, ← h'.2]

/-- With one pattern for all of its steps it is `fs_atomic_update`. -/
lemma fsAtomicUpdateBy_same :
    fsAtomicUpdateBy e (fun _ => e.writeStatus) s name content size parentId =
      fsAtomicUpdate e s name content size parentId :=
  rfl

variable {w : Fin 4 → Answers}

lemma updateStored_new (hs : size < 2 ^ 32)
    (hn : (firstIdx (fun i => (s.dirTable i).named parentId name) s.geo.maxEntries).isNone = true)
    (h : (fsCreateFile (e.answering (w 1)) s name content size parentId).1 = .ok)
    (hres : fsAtomicUpdateBy e w s name content size parentId =
      fsCreateFile (e.answering (w 1)) s name content size parentId) :
    UpdateStored e w s name content size parentId ↔
      UpdateTaken e w s name content size parentId := by
  rcases hst : storedForm e content size with _ | ⟨b, n⟩
  · exact absurd h (fsCreateFile_none (e := e.answering (w 1)) hst).1
  have hr := @fsCreateFile_some (e.answering (w 1)) s name content b size n parentId hst
  rw [hr] at h hres
  have hi := createStored_iff (storedForm_lt hs hst) h
  unfold UpdateStored UpdateTaken updateBase
  dsimp only
  rw [forall_storedForm hst, forall_storedForm hst]
  simp only [if_pos hn, hres]
  exact hi

/-- The data sectors are settled by the creation, the table sectors by the last deletion. -/
lemma updateStored_old (hsi : size < 2 ^ 32)
    (ho : ¬ (firstIdx (fun i => (s.dirTable i).named parentId name) s.geo.maxEntries).isNone =
      true) (hl : ¬ .immutable ≤ e.secLevel) {s2 : Fs} {o t : ℕ}
    (hcr : fsCreateFile (e.answering (w 1)) (updateCleared e w s name parentId) (tmpName name)
      content size parentId = (.ok, s2))
    (hsw : updateSwapped e w s name content size parentId =
      saveDirectoryToDisk (e.answering (w 2)) (s2.setDir (swapData e s2 o t)))
    (hres : (fsAtomicUpdateBy e w s name content size parentId).2 =
      (fsDelete (e.answering (w 3)) (updateSwapped e w s name content size parentId) (tmpName name)
        parentId).2) :
    UpdateStored e w s name content size parentId ↔
      UpdateTaken e w s name content size parentId := by
  have hok := congrArg Prod.fst hcr
  rcases hst : storedForm e content size with _ | ⟨b, n⟩
  · exact absurd hok (fsCreateFile_none (e := e.answering (w 1)) hst).1
  have hra := @fsCreateFile_some (e.answering (w 1)) (updateCleared e w s name parentId)
    (tmpName name) content b size n parentId hst
  rw [hra] at hcr hok
  unfold UpdateStored UpdateTaken updateBase
  dsimp only
  rw [forall_storedForm hst, forall_storedForm hst]
  simp only [if_neg ho, hres]
  by_cases hs : n + clusterBytes ≤ 2 ^ 32
  swap
  · exact iff_of_false (fun h => hs (chainOnDisk_size (storedForm_lt hsi hst) h.2))
      fun h => hs h.1
  have hf := fsCreateFileRaw_fits hok
  have hp : 0 < clustersNeeded n := by
    rw [clustersNeeded_eq hs]
    exact clustersFor_pos n
  obtain ⟨-, slot, start, hc⟩ := fsCreateFileRaw_created (e.answering (w 1)) b hf hp
  obtain ⟨fat, table, hsa⟩ := @fsCreateFileRaw_attempts e (updateCleared e w s name parentId)
    (tmpName name) parentId b n hs hf
  have hch := hsa.chain_iff newChain_lt (newChain_covers hs hf) (w 1)
  rw [hcr] at hc
  simp only [hcr] at hch
  have ha := saveDirectoryToDisk_agrees (e.answering (w 2)) (s2.setDir (swapData e s2 o t))
  rw [← hsw] at ha
  have hg : (updateSwapped e w s name content size parentId).geo = s.geo :=
    (ha.geo.trans hc.geo).trans (fsDelete_geo _ _ _ _)
  have hde := fsDelete_swapped (e := e.answering (w 3)) hf hc ha hl
  obtain ⟨fat', table', hs'⟩ := fsDelete_saves hde
  have ht := hs'.tables_iff (by simp) (w 3)
  have hd : ∀ rel, s2.geo.dataStart ≤ rel → (fsDelete (e.answering (w 3))
      (updateSwapped e w s name content size parentId) (tmpName name) parentId).2.disk rel =
      s2.disk rel := fun rel hr =>
    (hs'.data (w 3) (ha.geo ▸ hr) (by simp [InClusters])).trans (ha.disk rel hr)
  have hk : ChainOnDisk (fsDelete (e.answering (w 3))
      (updateSwapped e w s name content size parentId) (tmpName name) parentId).2
      (newChain (updateCleared e w s name parentId) n) b n ↔
      ChainOnDisk s2 (newChain (updateCleared e w s name parentId) n) b n :=
    chainOnDisk_congr ((fsDelete_geo _ _ _ _).trans ha.geo) hd (hc.geo ▸ newChain_lt)
  have hcl : (updateCleared e w s name parentId).geo = s.geo := fsDelete_geo _ _ _ _
  rw [hg] at ht
  rw [hcl] at hch
  rw [hk, hch, and_iff_right hs, and_comm]
  exact and_congr_right fun _ => ht

lemma updateStored_iff (hs : size < 2 ^ 32)
    (h : (fsAtomicUpdateBy e w s name content size parentId).1 = .ok) :
    UpdateStored e w s name content size parentId ↔
      UpdateTaken e w s name content size parentId := by
  obtain ⟨r, hr⟩ : ∃ r, r = fsAtomicUpdateBy e w s name content size parentId := ⟨_, rfl⟩
  have hres := hr
  rw [← hr] at h
  unfold fsAtomicUpdateBy at hr
  split_ifs at hr with hm hl hn
  · cases hr ▸ h
  · cases hr ▸ h
  · exact updateStored_new hs hn (hr ▸ h) (hres ▸ hr)
  · rcases hc : fsCreateFile (e.answering (w 1)) (updateCleared e w s name parentId)
      (tmpName name) content size parentId with ⟨err, s2⟩
    rw [hc] at hr
    by_cases he : err = .ok
    swap
    · have : r = (err, s2) := by cases err <;> first | exact hr | exact absurd rfl he
      rw [this] at h
      exact absurd h he
    subst he
    dsimp only at hr
    rcases ho : lastIdx (fun i => (s2.dirTable i).named parentId name) s2.geo.maxEntries with
      _ | o
    · rw [ho] at hr
      cases hr ▸ h
    rcases ht : lastIdx (fun i => (s2.dirTable i).named parentId (tmpName name))
      s2.geo.maxEntries with _ | t
    · rw [ho, ht] at hr
      cases hr ▸ h
    rw [ho, ht] at hr
    have hsw : updateSwapped e w s name content size parentId =
        saveDirectoryToDisk (e.answering (w 2)) (s2.setDir (swapData e s2 o t)) := by
      simp only [updateSwapped, hc, ho, ht]
    refine updateStored_old hs hn hl hc hsw ?_
    rw [← hres, hr, hsw]

end Update

/-- A call that reports success is on the disk exactly when every sector that had to change was
taken. -/
theorem success_stored_iff (e : Env) (w : Fin 4 → Answers) (s : Fs) (name newName : Name)
    (content : Buf) (size parentId : ℕ) (hsize : size < 2 ^ 32) :
    ((fsCreateFileRaw e s name content size parentId).1 = .ok →
      (CreateStored e s name content size parentId ↔
        CreateTaken e s name content size parentId)) ∧
    ((fsDelete e s name parentId).1 = .ok →
      (FatOnDisk (fsDelete e s name parentId).2 ∧ DirOnDisk (fsDelete e s name parentId).2 ↔
        Takes e.writeStatus (TableCell s.geo) s.disk
          (fsDelete (e.answering takesAll) s name parentId).2.disk)) ∧
    ((fsRename e s name newName parentId).1 = .ok →
      (DirOnDisk (fsRename e s name newName parentId).2 ∧
          (FatOnDisk s → FatOnDisk (fsRename e s name newName parentId).2) ↔
        Takes e.writeStatus (DirCell s.geo) s.disk
          (fsRename (e.answering takesAll) s name newName parentId).2.disk)) ∧
    ((fsMkdir e s name parentId).1 = .ok →
      (DirOnDisk (fsMkdir e s name parentId).2 ∧
          (FatOnDisk s → FatOnDisk (fsMkdir e s name parentId).2) ↔
        Takes e.writeStatus (DirCell s.geo) s.disk
          (fsMkdir (e.answering takesAll) s name parentId).2.disk)) ∧
    ((fsAtomicUpdateBy e w s name content size parentId).1 = .ok →
      (UpdateStored e w s name content size parentId ↔
        UpdateTaken e w s name content size parentId)) := by
  refine ⟨createStored_iff hsize, fun h => ?_, fun h => ?_, fun h => ?_, updateStored_iff hsize⟩
  · obtain ⟨fat, table, hsaves⟩ := fsDelete_saves h
    exact hsaves.tables_iff (by simp) e.writeStatus
  · obtain ⟨table, hsaves⟩ := fsRename_saves h
    exact savesDir_iff hsaves e.writeStatus
  · obtain ⟨table, hsaves⟩ := fsMkdir_saves h
    exact savesDir_iff hsaves e.writeStatus

/-- On a device that takes every write, a new directory is on the disk. -/
theorem success_stored_plain :
    (fsMkdir .plain tinyFs nameA 0).1 = .ok ∧ DirOnDisk (fsMkdir .plain tinyFs nameA 0).2 := by
  have hok : (fsMkdir .plain tinyFs nameA 0).1 = .ok := by decide +kernel
  have h := success_stored_iff .plain (fun _ => takesAll) tinyFs nameA nameA (fun _ => 0) 0 0
    (by decide)
  exact ⟨hok, ((h.2.2.2.1 hok).2 fun _ _ => rfl).1⟩

/-- A device that takes no write: the file is reported as created, and its entry is not there. -/
theorem success_not_stored :
    (fsCreateFileRaw { Env.plain with writeStatus := fun _ _ => .rofs } tinyFs nameA (fun _ => 7) 1
        0).1 = .ok ∧
      ¬ DirOnDisk (fsCreateFileRaw { Env.plain with writeStatus := fun _ _ => .rofs } tinyFs nameA
        (fun _ => 7) 1 0).2 := by
  refine ⟨by decide +kernel, fun h => ?_⟩
  have hbyte := h (96 + 95) (by decide +kernel)
  revert hbyte
  decide +kernel

end EsdumanOS
