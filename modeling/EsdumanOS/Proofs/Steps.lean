import EsdumanOS.Wellformed
import EsdumanOS.Proofs.Create

/-!
# What one call can do to the tables

Each operation of `vfs.c` refuses and leaves the volume alone, or makes one of a few changes: a new
file (`Created`), a freed entry (`Removed`), or one entry rewritten. The invariants are derived from
that.
-/

namespace EsdumanOS

open Lib

section Chains

variable {s : Fs} {i : ℕ} {l : List ℕ}

lemma ValidChain.length_le (h : ValidChain s i l) : l.length ≤ s.geo.totalClusters :=
  h.1.length_le fun x hx => (h.2 x hx).2

lemma chainOf_eq (h : ValidChain s (s.dirTable i).startCluster l)
    (h0 : (s.dirTable i).startCluster ≠ 0) : chainOf s i = l := by
  rw [chainOf, if_neg h0, follow_eq h.1 h.length_le]

lemma chainOf_zero (h : (s.dirTable i).startCluster = 0) : chainOf s i = [] := if_pos h

lemma ValidChain.transport {s s' : Fs} {c : ℕ} (hg : s'.geo = s.geo) (h : ValidChain s c l)
    (hf : ∀ x ∈ l, s'.fat x = s.fat x) : ValidChain s' c l :=
  ⟨h.1.congr hf, hg ▸ h.2⟩

lemma TableInv.mem_chain (h : TableInv s) (hi : Used s i) {c : ℕ} (hc : c ∈ chainOf s i) :
    c < s.geo.totalClusters := by
  by_cases h0 : (s.dirTable i).startCluster = 0
  · simp [chainOf_zero h0] at hc
  · exact ((h.chain i hi h0).2 c hc).2

lemma Linked.ne_free {fat : ℕ → ℕ} {n : ℕ} : ∀ {l : List ℕ} {c : ℕ}, Linked fat fatEof c l →
    (∀ x ∈ l, fsFirstDataCluster ≤ x ∧ x < n) → ∀ x ∈ l, fat x ≠ fatFree
  | [], _, _, _, x, hx => by simp at hx
  | y :: l, c, h, hl, x, hx => by
    obtain ⟨rfl, -, h⟩ := h
    rcases List.mem_cons.1 hx with rfl | hx
    · cases l with
      | nil =>
        have hx : fat x = fatEof := h
        simp [hx, fatEof, fatFree]
      | cons z l =>
        have hz := (hl z (by simp)).1
        rw [h.1]
        simp only [fsFirstDataCluster, fatFree] at hz ⊢
        omega
    · exact Linked.ne_free h (fun z hz => hl z (List.mem_cons_of_mem _ hz)) x hx

lemma TableInv.fat_ne_free (h : TableInv s) (hi : Used s i) {c : ℕ} (hc : c ∈ chainOf s i) :
    s.fat c ≠ fatFree := by
  by_cases h0 : (s.dirTable i).startCluster = 0
  · simp [chainOf_zero h0] at hc
  · exact Linked.ne_free (h.chain i hi h0).1 (h.chain i hi h0).2 c hc

end Chains

section Create

variable {e : Env} {s : Fs} {name : Name} {content b : Buf} {size n parentId : ℕ}

lemma fsCreateFile_none (h : storedForm e content size = none) :
    (fsCreateFile e s name content size parentId).1 ≠ .ok ∧
      (fsCreateFile e s name content size parentId).2 = s := by
  unfold storedForm at h
  unfold fsCreateFile fsCreateEncrypted
  split_ifs at h ⊢ <;> simp_all

lemma fsCreateFile_some (h : storedForm e content size = some (b, n)) :
    fsCreateFile e s name content size parentId = fsCreateFileRaw e s name b n parentId := by
  unfold storedForm at h
  unfold fsCreateFile fsCreateEncrypted
  split_ifs at h ⊢ <;> simp_all
  obtain ⟨iv, hi, rfl, rfl⟩ := h
  simp [hi]

lemma clustersNeeded_eq (h : size + clusterBytes ≤ 2 ^ 32) :
    clustersNeeded size = clustersFor size := by
  simp only [clustersNeeded, clustersFor, clusterBytes, fsClusterSectors] at *
  split_ifs with h0
  · simp [h0]
  · rw [u32_of_lt (by omega)]
    omega

lemma Content.size_clusters (c : Content) : c.size + clusterBytes ≤ 2 ^ 32 := by
  have := c.size_le
  simp only [clusterBytes, fsClusterSectors]
  omega

lemma clustersFor_pos (size : ℕ) : 0 < clustersFor size := by
  simp [clustersFor]

lemma storedForm_size_le (hs : size ≤ 2 ^ 31) (h : storedForm e content size = some (b, n)) :
    n + clusterBytes ≤ 2 ^ 32 := by
  have he : encTotalLen size + clusterBytes ≤ 2 ^ 32 := by
    simp only [encTotalLen, u32, clusterBytes, fsClusterSectors]
    omega
  unfold storedForm at h
  split_ifs at h
  · simp only [Option.map_eq_some_iff, Prod.mk.injEq] at h
    obtain ⟨iv, -, -, rfl⟩ := h
    exact he
  · simp only [Option.some.injEq, Prod.mk.injEq] at h
    simp only [clusterBytes, fsClusterSectors]
    omega

lemma fsCreateFileRaw_cases (hs : size + clusterBytes ≤ 2 ^ 32) :
    ((fsCreateFileRaw e s name content size parentId).1 ≠ .ok ∧
      (fsCreateFileRaw e s name content size parentId).2 = s ∧
      ¬ CreateFits s name size parentId) ∨
    ((fsCreateFileRaw e s name content size parentId).1 = .ok ∧
      CreateFits s name size parentId ∧ ∃ slot start,
      Created e s (fsCreateFileRaw e s name content size parentId).2 slot start name content size
        parentId) := by
  by_cases h : CreateFits s name size parentId
  · have hp : 0 < clustersNeeded size := by
      rw [clustersNeeded_eq hs]
      exact clustersFor_pos size
    obtain ⟨hok, hc⟩ := fsCreateFileRaw_created e content h hp
    exact .inr ⟨hok, h, hc⟩
  · obtain ⟨he, hs⟩ := fsCreateFileRaw_refused e content h
    exact .inl ⟨he, hs, h⟩

end Create

section Delete

structure Removes (e : Env) (s : Fs) (name : Name) (parentId i : ℕ) : Prop where
  mounted : s.mounted = true
  level : ¬ .immutable ≤ e.secLevel
  found : firstIdx (fun i => (s.dirTable i).named1 parentId name) s.geo.maxEntries = some i
  empty : (s.dirTable i).fileType = ftDir → ∀ c < s.geo.maxEntries,
    (s.dirTable c).isUsed = 1 → (s.dirTable c).parentId ≠ (s.dirTable i).entryId

structure Removed (s s' : Fs) (i : ℕ) : Prop where
  geo : s'.geo = s.geo
  mounted : s'.mounted = s.mounted
  dirTable : s'.dirTable = Function.update s.dirTable i (s.dirTable i).freed
  fat : ∀ x, s'.fat x = if x ∈ chainOf s i then fatFree else s.fat x
  disk : ∀ r, s.geo.dataStart ≤ r → s'.disk r = s.disk r

variable {e : Env} {s : Fs} {name : Name} {parentId i : ℕ}

lemma named1_used (h : (s.dirTable i).named1 parentId name = true) :
    (s.dirTable i).isUsed = 1 ∧ (s.dirTable i).parentId = parentId ∧
      (s.dirTable i).filename = name := by
  simpa [DirEntry.named1, and_assoc] using h

lemma named_used : (s.dirTable i).named parentId name = true ↔
    (s.dirTable i).isUsed ≠ 0 ∧ (s.dirTable i).parentId = parentId ∧
      (s.dirTable i).filename = name := by
  simp [DirEntry.named, and_assoc]

lemma Removes.used (h : Removes e s name parentId i) :
    Used s i ∧ (s.dirTable i).parentId = parentId ∧ (s.dirTable i).filename = name := by
  obtain ⟨hp, hi, -⟩ := firstIdx_eq_some.1 h.found
  obtain ⟨hu, hn⟩ := named1_used hp
  exact ⟨⟨hi, by omega⟩, hn⟩

lemma release_chainOf (h : (s.dirTable i).startCluster ≠ 0 →
      ValidChain s (s.dirTable i).startCluster (chainOf s i)) :
    release (fun c => c == fatEof || c == fatFree || decide (s.geo.totalClusters ≤ c)) fatFree
      (s.geo.totalClusters + 1) s.fat (s.dirTable i).startCluster =
      fun x => if x ∈ chainOf s i then fatFree else s.fat x := by
  by_cases h0 : (s.dirTable i).startCluster = 0
  · simp [chainOf_zero h0, release, h0, fatFree]
  · refine release_eq _ _ (by simp) (h h0).1 (fun x hx => ?_) (Nat.lt_succ_of_le (h h0).length_le)
    obtain ⟨h2, hlt⟩ := (h h0).2 x hx
    have hne := (cluster_lt_fatEof hlt).ne
    simp only [fsFirstDataCluster, fatFree] at h2 ⊢
    simp only [Bool.or_eq_false_iff, beq_eq_false_iff_ne, decide_eq_false_iff_not]
    omega

lemma fsDelete_removed (hr : Removes e s name parentId i) (hc : (s.dirTable i).startCluster ≠ 0 →
      ValidChain s (s.dirTable i).startCluster (chainOf s i)) :
    Removed s (fsDelete e s name parentId).2 i := by
  have hch : ¬ ((s.dirTable i).fileType = ftDir ∧ (firstIdx (fun c => (s.dirTable c).isUsed == 1
      && (s.dirTable c).parentId == (s.dirTable i).entryId) s.geo.maxEntries).isSome) := by
    rintro ⟨hd, hs⟩
    obtain ⟨c, hc, hp⟩ := firstIdx_isSome.1 hs
    simp only [Bool.and_eq_true, beq_iff_eq] at hp
    exact hr.empty hd c hc hp.1 hp.2
  have hre := release_chainOf hc
  have hf := saveFatToDisk_agrees e
    (s.setFat fun x => if x ∈ chainOf s i then fatFree else s.fat x)
  set t := saveFatToDisk e (s.setFat fun x => if x ∈ chainOf s i then fatFree else s.fat x) with ht
  have hdir := saveDirectoryToDisk_agrees e (t.setEntry i (t.dirTable i).freed)
  have hres : fsDelete e s name parentId =
      (.ok, saveDirectoryToDisk e (t.setEntry i (t.dirTable i).freed)) := by
    simp only [fsDelete, hr.mounted, hr.level, hr.found, hch, hre, ht]
    rfl
  rw [hres]
  refine ⟨hdir.geo.trans hf.geo, hdir.mounted.trans hf.mounted, ?_, fun x => ?_, fun r hr => ?_⟩
  · rw [hdir.dirTable]
    simp [hf.dirTable]
  · exact (congrFun hdir.fat x).trans (congrFun hf.fat x)
  · exact (hdir.disk r (le_of_eq_of_le (congrArg Geometry.dataStart hf.geo) hr)).trans
      (hf.disk r hr)

lemma fsDelete_refused (hr : ∀ i, ¬ Removes e s name parentId i) :
    (fsDelete e s name parentId).2 = s := by
  unfold fsDelete
  split_ifs with h1 h2
  · rfl
  · rfl
  · rcases h3 : firstIdx (fun i => (s.dirTable i).named1 parentId name) s.geo.maxEntries with _ | i
    · rfl
    · simp only
      split_ifs with h4
      · rfl
      · refine absurd ⟨by simpa using h1, h2, h3, fun hd c hc hu he => h4 ⟨hd, ?_⟩⟩ (hr i)
        exact firstIdx_isSome.2 ⟨c, hc, by simp [hu, he]⟩

end Delete

section Entries

variable {e : Env} {s : Fs}

lemma freeSlot_some {k : ℕ} (h : freeSlot s = some k) :
    0 < k ∧ k < s.geo.maxEntries ∧ (s.dirTable k).isUsed = 0 := by
  obtain ⟨hp, hk, -⟩ := firstIdx_eq_some.1 h
  simp only [Bool.and_eq_true, decide_eq_true_eq, beq_iff_eq] at hp
  exact ⟨hp.1, hk, hp.2⟩

lemma fsRename_cases (oldName newName : Name) (parentId : ℕ) :
    ((fsRename e s oldName newName parentId).1 ≠ .ok ∧
      (fsRename e s oldName newName parentId).2 = s) ∨
    ∃ i, i < s.geo.maxEntries ∧ (s.dirTable i).named1 parentId oldName = true ∧
      (∀ j < s.geo.maxEntries, (s.dirTable j).named1 parentId newName = false) ∧
      (fsRename e s oldName newName parentId).1 = .ok ∧
      Agree (fsRename e s oldName newName parentId).2
        (s.setEntry i { s.dirTable i with filename := newName, ctime := e.now }) := by
  unfold fsRename
  split_ifs with h1 h2 h3 h4
  · simp
  · simp
  · simp
  · simp
  · rcases h5 : firstIdx (fun i => (s.dirTable i).named1 parentId oldName) s.geo.maxEntries
      with _ | i
    · simp
    · obtain ⟨hp, hi, -⟩ := firstIdx_eq_some.1 h5
      have hn := firstIdx_eq_none.1 (by simpa using h4)
      exact .inr ⟨i, hi, hp, hn, rfl, saveDirectoryToDisk_agrees e _⟩

lemma fsMkdir_cases (name : Name) (parentId : ℕ) :
    ((fsMkdir e s name parentId).1 ≠ .ok ∧ (fsMkdir e s name parentId).2 = s) ∨
    ∃ k, freeSlot s = some k ∧ fsDirExists s parentId = true ∧
      (∀ j < s.geo.maxEntries, (s.dirTable j).named parentId name = false) ∧
      (fsMkdir e s name parentId).1 = .ok ∧
      Agree (fsMkdir e s name parentId).2 (s.setEntry k (newDirEntry e k name parentId)) := by
  unfold fsMkdir
  split_ifs with h1 h2 h3 h4 h5
  · simp
  · simp
  · simp
  · simp
  · simp
  · rcases h6 : freeSlot s with _ | k
    · simp
    · have hn := firstIdx_eq_none.1 (by simpa using h5)
      exact .inr ⟨k, rfl, by simpa using h4, hn, rfl, saveDirectoryToDisk_agrees e _⟩

lemma changeEntry_cases (entryId : ℕ) (change : DirEntry → DirEntry) :
    ((changeEntry e s entryId change).1 ≠ .ok ∧ (changeEntry e s entryId change).2 = s) ∨
    ∃ i, Used s i ∧ (changeEntry e s entryId change).1 = .ok ∧
      Agree (changeEntry e s entryId change).2
        (s.setEntry i { change (s.dirTable i) with ctime := e.now }) := by
  unfold changeEntry
  split_ifs with h1 h2
  · simp
  · simp
  · rcases h3 : fsSlotOf s entryId with _ | i
    · simp
    · obtain ⟨hp, hi, -⟩ := firstIdx_eq_some.1 h3
      simp only [Bool.and_eq_true, bne_iff_ne] at hp
      exact .inr ⟨i, ⟨hi, hp.1⟩, rfl, saveDirectoryToDisk_agrees e _⟩

end Entries

end EsdumanOS
