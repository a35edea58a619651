import EsdumanOS.Format
import EsdumanOS.Proofs.Update

/-!
# Well-formedness over whole runs

Every operation keeps a volume well formed (`FsOp.run_wellFormed`). The one intermediate state that
is not lies between the exchange and the last deletion of `fs_atomic_update`.
-/

namespace EsdumanOS

open Lib Function List

variable {e : Env} {s s' : Fs}

def RegularBut (s : Fs) (k : Option ℕ) : Prop :=
  ∀ i, Used s i → some i ≠ k → (s.dirTable i).fileType = ftRegular →
    (s.dirTable i).startCluster ≠ 0

lemma WellFormed.regularBut (h : WellFormed s) : RegularBut s none := by
  intro i hi _ ht h0
  have := h.regular i hi ht
  rw [chainOf_zero h0, length_nil] at this
  exact absurd this (clustersFor_pos _).ne

lemma TreeInv.wellFormed (h : TreeInv s) (hr : RegularBut s none) : WellFormed s := by
  refine ⟨h, fun i hi ht => h.size i hi (hr i hi (by simp) ht), fun c h2 hc hf => ?_⟩
  obtain ⟨i, hi, hci⟩ := h.noLeak c h2 hc hf
  refine ⟨i, ⟨hi, hci⟩, fun j hj => ?_⟩
  by_contra hji
  exact h.disjoint j i hj.1 hi hji hj.2 hci

section Create

variable {name : Name} {content : Buf} {size parentId slot start : ℕ}

lemma Created.wellFormed (hw : WellFormed s) (hf : CreateFits s name size parentId)
    (hs : size + clusterBytes ≤ 2 ^ 32)
    (h : Created e s s' slot start name content size parentId) : WellFormed s' := by
  have hl : (newChain s size).length = clustersFor size := by
    rw [← clustersNeeded_eq hs]
    simp [newChain, hf.room]
  refine ((h.inserted hf).treeInv hw.toTreeInv
    (fsDirExists_reachesRoot hw.toTreeInv hf.parent) (fun _ => hl)
    fun h0 => absurd h0 h.start_ne).wellFormed fun i hi _ ht => ?_
  by_cases hik : i = slot
  · rw [h.dirTable, hik, update_self]
    exact h.start_ne
  · rw [Used, h.geo, h.dirTable, update_of_ne hik] at hi
    rw [h.dirTable, update_of_ne hik] at ht ⊢
    exact hw.regularBut i hi (by simp) ht

lemma fsCreateFileRaw_wellFormed (hw : WellFormed s) (hs : size + clusterBytes ≤ 2 ^ 32) :
    WellFormed (fsCreateFileRaw e s name content size parentId).2 := by
  rcases fsCreateFileRaw_cases hs with ⟨-, hr, -⟩ | ⟨-, hf, slot, start, hc⟩
  · rwa [hr]
  · exact hc.wellFormed hw hf hs

lemma fsCreateFile_wellFormed (hw : WellFormed s) (hs : size ≤ 2 ^ 31) :
    WellFormed (fsCreateFile e s name content size parentId).2 := by
  rcases hst : storedForm e content size with _ | ⟨b, n⟩
  · rwa [(fsCreateFile_none hst).2]
  · rw [fsCreateFile_some hst]
    exact fsCreateFileRaw_wellFormed hw (storedForm_size_le hs hst)

end Create

lemma Removed.wellFormed {i : ℕ} (ht : TreeInv s) (hrb : RegularBut s (some i)) (hi : Used s i)
    (he : (s.dirTable i).fileType = ftDir → ∀ c < s.geo.maxEntries,
      (s.dirTable c).isUsed = 1 → (s.dirTable c).parentId ≠ (s.dirTable i).entryId)
    (hr : Removed s s' i) : WellFormed s' := by
  refine (hr.treeInv ht hi fun hd j hj => ?_).wellFormed fun j hj _ htj => ?_
  · have := ht.flags j hj.1
    have := hj.2
    exact he hd j hj.1 (by omega)
  · have hji : j ≠ i := fun hji => hj.2 (by rw [hr.dirTable, hji, update_self]; rfl)
    rw [hr.dirTable, update_of_ne hji] at htj ⊢
    rw [Used, hr.geo, hr.dirTable, update_of_ne hji] at hj
    exact hrb j hj (by simpa using hji) htj

section

variable (hw : WellFormed s)
include hw

lemma fsDelete_wellFormed (name : Name) (parentId : ℕ) :
    WellFormed (fsDelete e s name parentId).2 := by
  rcases fsDelete_cases hw.toTableInv with h | ⟨i, hr, hre⟩
  · rwa [h]
  · exact hre.wellFormed hw.toTreeInv
      (fun j hj _ => hw.regularBut j hj (by simp)) hr.used.1 hr.empty

lemma Rewritten.wellFormed {i : ℕ} {d : DirEntry} (h : Rewritten s s' i d) : WellFormed s' := by
  refine (h.treeInv hw.toTreeInv).wellFormed fun j hj _ ht => ?_
  rw [(h.samePlace j).fileType] at ht
  rw [(h.samePlace j).startCluster]
  exact hw.regularBut j ((h.used j).1 hj) (by simp) ht

lemma fsRename_wellFormed (oldName newName : Name) (parentId : ℕ) :
    WellFormed (fsRename e s oldName newName parentId).2 := by
  rcases fsRename_cases (e := e) (s := s) oldName newName parentId with
    ⟨-, hr⟩ | ⟨i, hi, ho, hne, -, ha⟩
  · rwa [hr]
  · obtain ⟨hu, hp, -⟩ := named1_used ho
    refine Rewritten.wellFormed hw ⟨ha.geo, ha.dirTable, ha.fat, ⟨rfl, rfl, rfl, rfl, rfl, rfl⟩,
      fun j hj _ hpj hn => ?_⟩
    have h1 : (s.dirTable j).isUsed = 1 := by
      have := hw.flags j hj.1
      have := hj.2
      omega
    have := hne j hj.1
    simp [DirEntry.named1, h1, hpj, hp, hn] at this

lemma fsMkdir_wellFormed (name : Name) (parentId : ℕ) :
    WellFormed (fsMkdir e s name parentId).2 := by
  rcases fsMkdir_cases (e := e) (s := s) name parentId with
    ⟨-, hr⟩ | ⟨k, hk, hp, hfresh, -, ha⟩
  · rwa [hr]
  · obtain ⟨hk0, hkm, hu⟩ := freeSlot_some hk
    have hd : (fsMkdir e s name parentId).2.dirTable =
        update s.dirTable k (newDirEntry e k name parentId) := ha.dirTable
    have hi : Inserted s (fsMkdir e s name parentId).2 k (newDirEntry e k name parentId) [] :=
      { pos := hk0
        lt := hkm
        unused := hu
        geo := ha.geo
        dirTable := hd
        isUsed := rfl
        entryId := rfl
        fresh := fun j hj hpj hn =>
          Bool.false_ne_true ((hfresh j hj.1).symm.trans (named_used.2 ⟨hj.2, hpj, hn⟩))
        owns := .inl ⟨by rw [hd, update_self]; rfl, rfl⟩
        free := by simp
        fat_off := fun x _ => congrFun ha.fat x }
    refine (hi.treeInv hw.toTreeInv (fsDirExists_reachesRoot hw.toTreeInv hp)
      (fun h0 => absurd rfl h0) fun _ => rfl).wellFormed fun j hj _ ht => ?_
    rw [Used, hi.geo] at hj
    rw [hd] at ht hj ⊢
    by_cases hjk : j = k
    · rw [hjk, update_self] at ht
      exact absurd (show ftDir = ftRegular from ht) (by decide)
    · rw [update_of_ne hjk] at ht hj ⊢
      exact hw.regularBut j hj (by simp) ht

lemma changeEntry_wellFormed (entryId : ℕ) {change : DirEntry → DirEntry}
    (hc : ∀ d, SamePlace (change d) d ∧ (change d).filename = d.filename) :
    WellFormed (changeEntry e s entryId change).2 := by
  rcases changeEntry_cases (e := e) (s := s) entryId change with ⟨-, hr⟩ | ⟨i, hi, -, ha⟩
  · rwa [hr]
  · obtain ⟨hs, hn⟩ := hc (s.dirTable i)
    refine Rewritten.wellFormed hw ⟨ha.geo, ha.dirTable, ha.fat, ⟨hs.isUsed, hs.entryId,
      hs.parentId, hs.fileType, hs.startCluster, hs.fileSize⟩, fun j hj hji hp hnj => hji ?_⟩
    exact hw.unique j i hj hi (hp.trans hs.parentId) (hnj.trans hn)

end

section Update

variable {name : Name} {content : Buf} {size parentId : ℕ}

lemma Replaced.wellFormed {s1 s2 s3 : Fs} {o t start n : ℕ} {b : Buf} (hw : WellFormed s1)
    (hn : n + clusterBytes ≤ 2 ^ 32)
    (h : Replaced e s1 s2 s3 s' o t start name b n parentId) : WellFormed s' := by
  have hw2 : WellFormed s2 := h.created.wellFormed hw h.fits hn
  have hi := h.created.inserted h.fits
  have ht : Used s2 t := (hi.used t).2 (.inl rfl)
  have hty : (s3.dirTable t).fileType = ftRegular := by
    rw [h.swapped.fileType, hi.at_eq]
    rfl
  refine h.removed.wellFormed (h.swapped.treeInv hw2.toTreeInv h.orig_used ht) ?_
    ((h.swapped.used t).2 ht) fun hd => absurd (hd.symm.trans hty) (by decide)
  -- the exchange leaves only the temporary file, freed next, possibly without data
  intro j hj hjt htj
  have hjt : j ≠ t := by simpa using hjt
  rw [h.swapped.startCluster]
  by_cases hjo : j = o
  · rw [hjo, Equiv.swap_apply_left, hi.at_eq]
    exact h.created.start_ne
  · rw [Equiv.swap_apply_of_ne_of_ne hjo hjt]
    rw [h.swapped.fileType] at htj
    exact hw2.regularBut j ((h.swapped.used j).1 hj) (by simp) htj

lemma fsAtomicUpdate_wellFormed (hw : WellFormed s) (hs : size ≤ 2 ^ 31) :
    WellFormed (fsAtomicUpdate e s name content size parentId).2 := by
  by_cases hml : s.mounted = true ∧ ¬ .immutable ≤ e.secLevel
  · obtain ⟨hm, hl⟩ := hml
    by_cases hn : ∃ o, Used s o ∧ (s.dirTable o).named parentId name = true
    · obtain ⟨o, ho, hn⟩ := hn
      rcases @fsAtomicUpdate_found e s name content size parentId hm hl o ho hn hw.toTableInv hs
        with ⟨-, hs1, -⟩ | ⟨-, b, n, s2, s3, o', t, start, hst, -, hr⟩
      · rw [hs1]
        exact fsDelete_wellFormed hw _ _
      · exact hr.wellFormed (fsDelete_wellFormed hw _ _) (storedForm_size_le hs hst)
    · rw [fsAtomicUpdate_not_found hm hl hn]
      exact fsCreateFile_wellFormed hw hs
  · rwa [(fsAtomicUpdate_blocked hml).2]

end Update

lemma FsOp.run_wellFormed (hw : WellFormed s) (op : FsOp) : WellFormed (op.run e s).2 := by
  cases op with
  | createRaw name content parentId => exact fsCreateFileRaw_wellFormed hw content.size_clusters
  | create name content parentId => exact fsCreateFile_wellFormed hw content.size_le
  | mkdir name parentId => exact fsMkdir_wellFormed hw name parentId
  | delete name parentId => exact fsDelete_wellFormed hw name parentId
  | rename oldName newName parentId => exact fsRename_wellFormed hw oldName newName parentId
  | update name content parentId => exact fsAtomicUpdate_wellFormed hw content.size_le
  | chmod entryId mode =>
    exact changeEntry_wellFormed hw entryId fun d => ⟨⟨rfl, rfl, rfl, rfl, rfl, rfl⟩, rfl⟩
  | chown entryId uid gid =>
    exact changeEntry_wellFormed hw entryId fun d => ⟨⟨rfl, rfl, rfl, rfl, rfl, rfl⟩, rfl⟩

lemma fsRun_wellFormed_of (hw : WellFormed s) (calls : List (Env × FsOp)) :
    WellFormed (fsRun s calls) :=
  foldl_invariant (fun _ call h => call.2.run_wellFormed h) calls hw

lemma wellFormed_of_fresh (hd : ∀ i, (s.dirTable i).isUsed = 0)
    (hf : ∀ c, fsFirstDataCluster ≤ c → s.fat c = fatFree) : WellFormed s := by
  have hu : ∀ i, ¬ Used s i := fun i hi => hi.2 (hd i)
  refine TreeInv.wellFormed ⟨⟨fun i hi => absurd hi (hu i), fun i _ hi => absurd hi (hu i),
    fun i hi => absurd hi (hu i), fun i _ hi => absurd hi (hu i)⟩, hd 0,
    fun i _ => (hd i).le.trans (Nat.zero_le _), fun i hi => absurd hi (hu i),
    fun i hi => absurd hi (hu i), fun i hi => absurd hi (hu i),
    fun c h2 _ hc => absurd (hf c h2) hc⟩
    fun i hi => absurd hi (hu i)

lemma freshFs_wellFormed (geo : Geometry) (m : Bool) (disk : ℕ → Buf) :
    WellFormed (freshFs geo m disk) :=
  wellFormed_of_fresh (fun _ => rfl) fun c hc => if_neg (by omega)

lemma formatDisk_agrees {maxSectors : UInt32} {clusters : ℕ} {disk : ℕ → Buf}
    (h : formatDisk e maxSectors clusters disk = (.ok, some s)) :
    Agree s (freshFs (formatGeometry maxSectors clusters) false disk) := by
  set geo := formatGeometry maxSectors clusters with hg
  unfold formatDisk at h
  simp only [← hg] at h
  split at h
  · simp only [Prod.mk.injEq, true_and, Option.some.injEq] at h
    subst h
    have hdir := geo.dir_before_fat
    have hf := geo.fat_before_data
    have hz := @foldl_write_agrees e (fun _ i => geo.dirStart + i) (fun _ _ _ => 0)
      (range (dirSectorsFor geo.maxEntries)) (freshFs geo false disk) fun t ht i hi => by
        rw [ht]
        rw [mem_range] at hi
        simp only [freshFs]
        omega
    refine (saveDirectoryToDisk_agrees e _).trans ((saveFatToDisk_agrees e _).trans
      ((fsWriteSector_agrees e _ ?_).trans hz))
    rw [hz.geo]
    have : fsDirStartSector = geo.dirStart := rfl
    simp only [fsDirStartSector, fsSuperSector, freshFs] at this ⊢
    omega
  · simp at h

lemma formatDisk_wellFormed {maxSectors : UInt32} {clusters : ℕ} {disk : ℕ → Buf}
    (h : formatDisk e maxSectors clusters disk = (.ok, some s)) : WellFormed s.mount := by
  have ha := formatDisk_agrees h
  refine wellFormed_of_fresh (fun i => ?_) fun c hc => ?_
  · rw [show s.mount.dirTable = _ from ha.dirTable]
    rfl
  · rw [show s.mount.fat = _ from ha.fat]
    exact if_neg (by omega)

lemma fsCreateFileRaw_clusters {name : Name} {content : Content} {parentId : ℕ} (hw : WellFormed s)
    (hok : (fsCreateFileRaw e s name content.bytes content.size parentId).1 = .ok) :
    ∃ i, Used (fsCreateFileRaw e s name content.bytes content.size parentId).2 i ∧
      ((fsCreateFileRaw e s name content.bytes content.size parentId).2.dirTable i).named parentId
        name = true ∧
      ((fsCreateFileRaw e s name content.bytes content.size parentId).2.dirTable i).fileType =
        ftRegular ∧
      (chainOf (fsCreateFileRaw e s name content.bytes content.size parentId).2 i).length =
        clustersFor content.size := by
  have hs := content.size_clusters
  rcases @fsCreateFileRaw_cases e s name content.bytes content.size parentId hs with
    ⟨he, -⟩ | ⟨-, hf, slot, start, hc⟩
  · exact absurd hok he
  · have hi := hc.inserted hf
    have hu := (hi.used slot).2 (.inl rfl)
    have hr := (hc.wellFormed hw hf hs).regular slot hu
    rw [hi.at_eq] at hr
    refine ⟨slot, hu, ?_, ?_, hr rfl⟩
    · rw [hi.at_eq]
      simp [DirEntry.named, newFileEntry]
    · rw [hi.at_eq]
      rfl

/-- From a fresh format on, the tables are well formed, and a regular file of `n` bytes owns
`clustersFor n` clusters. -/
theorem fsRun_wellFormed (e : Env) (maxSectors : UInt32) (clusters : ℕ) (disk : ℕ → Buf) (s : Fs)
    (h : formatDisk e maxSectors clusters disk = (.ok, some s)) (calls : List (Env × FsOp)) :
    WellFormed (fsRun s.mount calls) ∧
      ∀ (e' : Env) (name : Name) (content : Content) (parentId : ℕ),
        let r := fsCreateFileRaw e' (fsRun s.mount calls) name content.bytes content.size parentId
        r.1 = .ok → ∃ i, Used r.2 i ∧ (r.2.dirTable i).named parentId name = true ∧
          (r.2.dirTable i).fileType = ftRegular ∧
          (chainOf r.2 i).length = clustersFor content.size := by
  have hw := fsRun_wellFormed_of (formatDisk_wellFormed h) calls
  exact ⟨hw, fun e' name content parentId hok => fsCreateFileRaw_clusters hw hok⟩

def Env.plain : Env where
  secLevel := .normal
  keyUsable := true
  uid := 0
  gid := 0
  now := 0
  kmallocOk := true
  iv := none
  crypto := ⟨fun _ _ _ => 0, fun _ data _ => data⟩
  writeStatus := fun _ _ => .ok
  readFault := fun _ => none

/-- The image of 4096 sectors the test suite formats. -/
theorem fsRun_wellFormed_image : ∃ s, formatDisk .plain 4032 479 (fun _ _ => 0) = (.ok, some s) ∧
    WellFormed (fsRun s.mount [(.plain, .mkdir ['d'] 0), (.plain, .delete ['d'] 0)]) := by
  have h : ∃ s, formatDisk .plain 4032 479 (fun _ _ => 0) = (.ok, some s) := by
    exact ⟨_, rfl⟩
  obtain ⟨s, hs⟩ := h
  exact ⟨s, hs, (fsRun_wellFormed _ _ _ _ s hs _).1⟩

end EsdumanOS
