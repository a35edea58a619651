import EsdumanOS.Proofs.Read

/-!
# Files held open

An open file is a start cluster and a size, and nothing keeps the chain behind it. As long as no
call frees the slot's clusters (`Frees`) a read returns the bytes the file had when it was opened
(`fsReadRaw_isolated`); once one does, the clusters go to the next file.
-/

namespace EsdumanOS

open Lib

variable {name : Name} {b : Buf}

section Keeps

structure Keeps (s s' : Fs) (i : ℕ) : Prop where
  geo : s'.geo = s.geo
  used : Used s' i
  startCluster : (s'.dirTable i).startCluster = (s.dirTable i).startCluster
  chain : chainOf s' i = chainOf s i
  data : ∀ p, dataByte s' (chainOf s i) p = dataByte s (chainOf s i) p

variable {e : Env} {s s' s'' : Fs} {i : ℕ}

lemma Keeps.refl (hi : Used s i) : Keeps s s i := ⟨rfl, hi, rfl, rfl, fun _ => rfl⟩

lemma Keeps.trans (h : Keeps s s' i) (h' : Keeps s' s'' i) : Keeps s s'' i where
  geo := h'.geo.trans h.geo
  used := h'.used
  startCluster := h'.startCluster.trans h.startCluster
  chain := h'.chain.trans h.chain
  data p := by
    rw [← h.data p, ← h.chain]
    exact h'.data p

section

variable (ht : TableInv s)
include ht

section

variable (hi : Used s i)
include hi

lemma Created.keeps {n parentId slot start : ℕ} (hf : CreateFits s name n parentId)
    (h : Created e s s' slot start name b n parentId) : Keeps s s' i := by
  have hin := h.inserted hf
  refine ⟨h.geo, (hin.used i).2 (.inr hi), ?_, (hin.ownsChain_old ht hi).chainOf_eq, ?_⟩
  · rw [hin.off (hin.ne_of_used hi)]
  · exact h.dataByte_old ht hf hi

lemma fsCreateFileRaw_keeps {n parentId : ℕ} (hn : n + clusterBytes ≤ 2 ^ 32) :
    Keeps s (fsCreateFileRaw e s name b n parentId).2 i := by
  rcases @fsCreateFileRaw_cases e s name b n parentId hn with ⟨-, hs, -⟩ | ⟨-, hf, slot, start, hc⟩
  · rw [hs]
    exact .refl hi
  · exact hc.keeps ht hi hf

lemma fsCreateFile_keeps {n parentId : ℕ} (hn : n ≤ 2 ^ 31) :
    Keeps s (fsCreateFile e s name b n parentId).2 i := by
  rcases hst : storedForm e b n with _ | ⟨b', n'⟩
  · rw [(fsCreateFile_none hst).2]
    exact .refl hi
  · rw [fsCreateFile_some hst]
    exact fsCreateFileRaw_keeps ht hi (storedForm_size_le hn hst)

lemma Removed.keeps {j : ℕ} (hj : Used s j) (hij : i ≠ j)
    (h : Removed s s' j) : Keeps s s' i := by
  have hi' : Used s' i := (h.used i).2 ⟨hi, hij⟩
  refine ⟨h.geo, hi', by rw [h.off hij], (h.ownsChain ht hj i hi').chainOf_eq, fun p => ?_⟩
  exact dataByte_of_disk h.geo h.disk (fun c hc => ht.mem_chain hi hc) p

lemma fsDelete_keeps {parentId : ℕ}
    (hr : ¬ Removes e s name parentId i) : Keeps s (fsDelete e s name parentId).2 i := by
  rcases fsDelete_cases ht with h | ⟨j, hj, hre⟩
  · rw [h]
    exact .refl hi
  · have hij : i ≠ j := by
      rintro rfl
      exact hr hj
    exact hre.keeps ht hi hj.used.1 hij

lemma Keeps.of_entry {j : ℕ} {d : DirEntry}
    (h : Agree s' (s.setEntry j d)) (hd : i = j → d.isUsed = (s.dirTable i).isUsed ∧
      d.startCluster = (s.dirTable i).startCluster) : Keeps s s' i := by
  have he : (s'.dirTable i).isUsed = (s.dirTable i).isUsed ∧
      (s'.dirTable i).startCluster = (s.dirTable i).startCluster := by
    rw [h.dirTable, Fs.setEntry_dirTable]
    by_cases hij : i = j
    · rw [← hij, Function.update_self]
      exact hd hij
    · rw [Function.update_of_ne hij]
      exact ⟨rfl, rfl⟩
  refine ⟨h.geo, ?_, he.2, ?_, fun p => ?_⟩
  · rw [Used, show s'.geo = s.geo from h.geo, he.1]
    exact hi
  · refine OwnsChain.chainOf_eq ((ht.ownsChain hi).transport h.geo he.2 fun x _ => ?_)
    exact congrFun h.fat x
  · exact dataByte_of_disk h.geo h.disk (fun c hc => ht.mem_chain hi hc) p

lemma changeEntry_keeps {entryId : ℕ} {change : DirEntry → DirEntry}
    (hc : ∀ d, SamePlace (change d) d) :
    Keeps s (changeEntry e s entryId change).2 i := by
  rcases @changeEntry_cases e s entryId change with ⟨-, hs⟩ | ⟨j, -, -, ha⟩
  · rw [hs]
    exact .refl hi
  · refine .of_entry ht hi ha fun hij => ?_
    rw [← hij]
    exact ⟨(hc _).isUsed, (hc _).startCluster⟩

lemma Replaced.keeps {s₂ s₃ : Fs} {o t start n parentId : ℕ} (hio : i ≠ o)
    (h : Replaced e s s₂ s₃ s' o t start name b n parentId) : Keeps s s' i := by
  have hc := h.chainOf_eq ht hi
  rw [if_neg hio] at hc
  refine ⟨h.geo, (h.used i).2 hi, by rw [h.off hi hio], hc, fun p => ?_⟩
  have := h.fileByte_old ht hi hio p
  rwa [fileByte, hc, fileByte] at this

end

end

end Keeps

section Frees

/-- The call gives the clusters of slot `i` back: it deletes the entry, or updates it or its
temporary name. -/
def Frees (i : ℕ) (s : Fs) (call : Env × FsOp) : Prop :=
  match call.2 with
  | .delete name parentId => Removes call.1 s name parentId i
  | .update name content parentId =>
    (∃ o, Used s o ∧ (s.dirTable o).named parentId name = true) ∧
      (Removes call.1 s (tmpName name) parentId i ∨
        (s.dirTable i).named parentId name = true ∧
          ∃ b n, storedForm call.1 content.bytes content.size = some (b, n) ∧
            CreateFits (fsDelete call.1 s (tmpName name) parentId).2 (tmpName name) n parentId)
  | _ => False

variable {e : Env} {s : Fs} {i : ℕ}

lemma fsAtomicUpdate_keeps {content : Content} {parentId : ℕ} (ht : TableInv s)
    (hi : Used s i) (hf : ¬ Frees i s (e, .update name content parentId)) :
    Keeps s (fsAtomicUpdate e s name content.bytes content.size parentId).2 i := by
  by_cases hml : s.mounted = true ∧ ¬ .immutable ≤ e.secLevel
  · obtain ⟨hm, hl⟩ := hml
    by_cases he : ∃ o, Used s o ∧ (s.dirTable o).named parentId name = true
    · obtain ⟨o, ho, hn⟩ := he
      simp only [Frees, not_and, not_or] at hf
      obtain ⟨hr, hs⟩ := hf ⟨o, ho, hn⟩
      have h1 : Keeps s (cleared e s name parentId) i := fsDelete_keeps ht hi hr
      have ht1 : TableInv (cleared e s name parentId) := fsDelete_tableInv ht
      rcases @fsAtomicUpdate_found e s name content.bytes content.size parentId hm hl o ho hn ht
        content.size_le with ⟨-, hs1, -⟩ | ⟨-, b, n, s₂, s₃, o', t, start, hst, ho', h⟩
      · rwa [hs1]
      · refine h1.trans (h.keeps ht1 h1.used ?_)
        rintro rfl
        split_ifs at ho' with hna
        · exact (h.created.inserted h.fits).ne_of_used h1.used ho'
        · subst ho'
          exact hs hn ⟨b, n, hst, h.fits⟩
    · rw [fsAtomicUpdate_not_found hm hl he]
      exact fsCreateFile_keeps ht hi content.size_le
  · rw [(fsAtomicUpdate_blocked hml).2]
    exact .refl hi

lemma fsStep_keeps (ht : TableInv s) (hi : Used s i) (call : Env × FsOp)
    (hf : ¬ Frees i s call) : Keeps s (fsStep s call) i := by
  obtain ⟨e, op⟩ := call
  cases op with
  | createRaw name content parentId => exact fsCreateFileRaw_keeps ht hi content.size_clusters
  | create name content parentId => exact fsCreateFile_keeps ht hi content.size_le
  | mkdir name parentId =>
    rcases @fsMkdir_cases e s name parentId with ⟨-, hs⟩ | ⟨k, hk, -, -, -, ha⟩
    · rw [show fsStep s (e, .mkdir name parentId) = s from hs]
      exact .refl hi
    · refine .of_entry ht hi ha fun hik => absurd (freeSlot_some hk).2.2 ?_
      rw [← hik]
      exact hi.2
  | delete name parentId => exact fsDelete_keeps ht hi hf
  | rename oldName newName parentId =>
    rcases @fsRename_cases e s oldName newName parentId with ⟨-, hs⟩ | ⟨j, -, -, -, -, ha⟩
    · rw [show fsStep s (e, .rename oldName newName parentId) = s from hs]
      exact .refl hi
    · refine .of_entry ht hi ha fun hij => ?_
      rw [hij]
      exact ⟨rfl, rfl⟩
  | update name content parentId => exact fsAtomicUpdate_keeps ht hi hf
  | chmod entryId mode =>
    exact changeEntry_keeps ht hi fun d => ⟨rfl, rfl, rfl, rfl, rfl, rfl⟩
  | chown entryId uid gid =>
    exact changeEntry_keeps ht hi fun d => ⟨rfl, rfl, rfl, rfl, rfl, rfl⟩

lemma fsRun_keeps (hw : WellFormed s) (hi : Used s i) {calls : List (Env × FsOp)}
    (hf : StepsMeet fsStep (fun t call => ¬ Frees i t call) s calls) :
    Keeps s (fsRun s calls) i := by
  have hs : ∀ t call, WellFormed t ∧ Keeps s t i → ¬ Frees i t call →
      WellFormed (fsStep t call) ∧ Keeps s (fsStep t call) i := by
    intro t call h hc
    exact ⟨call.2.run_wellFormed h.1, h.2.trans (fsStep_keeps h.1.toTableInv h.2.used call hc)⟩
  exact (foldl_induction hs calls ⟨hw, .refl hi⟩ hf).2

end Frees

section Isolation

variable {s : Fs} {name : Name} {parentId : ℕ} {file : VfsFile}

lemma fsOpen_some (h : fsOpen s name parentId = (.ok, some file)) :
    Used s file.inodeIdx ∧
      file.startCluster = (s.dirTable file.inodeIdx).startCluster ∧
      file.fileSize = (s.dirTable file.inodeIdx).fileSize := by
  unfold fsOpen at h
  split at h
  · simp at h
  · split at h
    · simp at h
    · rename_i i hi
      obtain ⟨hn, hlt, -⟩ := firstIdx_eq_some.1 hi
      simp only [Prod.mk.injEq, true_and, Option.some.injEq] at h
      subst h
      have := (named1_used hn).1
      exact ⟨⟨hlt, by simp only; omega⟩, rfl, rfl⟩

lemma TreeInv.fileSize_le (h : TreeInv s) {i : ℕ} (hi : Used s i)
    (h0 : (s.dirTable i).startCluster ≠ 0) :
    (s.dirTable i).fileSize ≤ (chainOf s i).length * clusterBytes := by
  rw [h.size i hi h0]
  simp only [clustersFor, clusterBytes, fsClusterSectors]
  omega

/-- A read of an open file whose clusters no call has freed returns the bytes it had when opened. -/
theorem fsReadRaw_isolated (s : Fs) (hw : WellFormed s) (name : Name) (parentId : ℕ)
    (file : VfsFile) (hopen : fsOpen s name parentId = (.ok, some file))
    (calls : List (Env × FsOp))
    (hcalls : StepsMeet fsStep (fun t call => ¬ Frees file.inodeIdx t call) s calls)
    (e : Env) (he : ∀ r, e.readFault r = none) (offset size : ℕ)
    (hwrap : offset + size < 2 ^ 32) :
    (fsReadRaw e (fsRun s calls) { file with currentOffset := offset } size).1 =
      slice s (chainOf s file.inodeIdx) offset (min size (file.fileSize - offset)) := by
  obtain ⟨hi, hstart, hsize⟩ := fsOpen_some hopen
  have hk := fsRun_keeps hw hi hcalls
  have hw' := fsRun_wellFormed_of hw calls
  by_cases hlt : offset < file.fileSize
  · have h0 : (s.dirTable file.inodeIdx).startCluster ≠ 0 := by
      intro h0
      have := hw.noData _ hi h0
      omega
    have hchain := hw'.chain _ hk.used (hk.startCluster ▸ h0)
    rw [hk.chain, hk.startCluster, ← hstart] at hchain
    have hread := @fsReadRaw_eq e (fsRun s calls) { file with currentOffset := offset } _ size he
      hchain (hsize ▸ hw.toTreeInv.fileSize_le hi h0) hlt hwrap
    rw [hread]
    exact List.map_congr_left fun k _ => hk.data (offset + k)
  · simp [fsReadRaw, slice, not_lt.1 hlt]

def nameB : Name := ['b']

def openA : VfsFile :=
  ⟨nameA, 1, 0, 2, 1, 1, fun _ => 0, 0, 0, false⟩

/-- Creating another file leaves the open one readable. -/
theorem fsReadRaw_isolated_create :
    (fsReadRaw .plain (fsRun oneFile [(.plain, .createRaw nameB (.byte 2) 0)]) openA 1).1 =
      slice oneFile (chainOf oneFile 1) 0 1 := by
  have h := fsReadRaw_isolated oneFile (fsRun_wellFormed_of (freshFs_wellFormed _ _ _) _) nameA 0
    openA rfl [(.plain, .createRaw nameB (.byte 2) 0)] ⟨fun h => h, trivial⟩ .plain (fun _ => rfl)
    0 1 (by decide)
  exact h

/-- The file is deleted while open; the next file gets its cluster, and the reader its byte. -/
theorem fsReadRaw_leaks :
    WellFormed oneFile ∧ fsOpen oneFile nameA 0 = (.ok, some openA) ∧
      slice oneFile (chainOf oneFile 1) 0 1 = [1] ∧
      (fsReadRaw .plain (fsRun oneFile [(.plain, .delete nameA 0),
        (.plain, .createRaw nameB (.byte 2) 0)]) openA 1).1 = [2] := by
  refine ⟨fsRun_wellFormed_of (freshFs_wellFormed _ _ _) _, rfl, by decide, by decide⟩

end Isolation

section Commit

variable {s : Fs} {e : Env}

/-- The commit has replaced the contents of entry `i`, or failed, and no other entry has changed. -/
structure CommitInPlace (e : Env) (s s' : Fs) (r : Errno) (i : ℕ) (buf : Content) : Prop where
  replaced : r = .ok → Used s' i ∧ (s'.dirTable i).entryId = (s.dirTable i).entryId ∧
    ∃ b n, storedForm e buf.bytes buf.size = some (b, n) ∧ (s'.dirTable i).fileSize = n ∧
      ∀ p < n, fileByte s' i p = b p
  others : ∀ j, j ≠ i → Used s j ∨ Used s' j → s'.dirTable j = s.dirTable j

def VfsFile.buffered (file : VfsFile) (buf : Content) : VfsFile :=
  { file with writeBuf := buf.bytes, writeLen := buf.size, writeCap := buf.size, dirty := true }

lemma fsCommitWrites_buffered {file : VfsFile} (buf : Content) (hi : Used s file.inodeIdx) :
    (fsCommitWrites e s (file.buffered buf)).1 = (fsAtomicUpdate e s file.filename buf.bytes
      buf.size (s.dirTable file.inodeIdx).parentId).1 ∧
    (fsCommitWrites e s (file.buffered buf)).2.1 = (fsAtomicUpdate e s file.filename buf.bytes
      buf.size (s.dirTable file.inodeIdx).parentId).2 := by
  have hlt : ¬ s.geo.maxEntries ≤ file.inodeIdx := not_le.2 hi.1
  simp [fsCommitWrites, VfsFile.buffered, hlt]

/-- A commit writes to the entry that was opened when no call has freed it, it bears its name, and
nothing is in the way. -/
theorem fsCommitWrites_in_place (s : Fs) (hw : WellFormed s) (name : Name) (parentId : ℕ)
    (file : VfsFile) (hopen : fsOpen s name parentId = (.ok, some file))
    (calls : List (Env × FsOp))
    (hcalls : StepsMeet fsStep (fun t call => ¬ Frees file.inodeIdx t call) s calls)
    (hname : ((fsRun s calls).dirTable file.inodeIdx).filename = file.filename)
    (e : Env) (buf : Content)
    (hsafe : ReplaceSafe e (fsRun s calls) file.filename buf
      ((fsRun s calls).dirTable file.inodeIdx).parentId) :
    CommitInPlace e (fsRun s calls) (fsCommitWrites e (fsRun s calls) (file.buffered buf)).2.1
      (fsCommitWrites e (fsRun s calls) (file.buffered buf)).1 file.inodeIdx buf := by
  have hi := (fsRun_keeps hw (fsOpen_some hopen).1 hcalls).used
  have ht := (fsRun_wellFormed_of hw calls).toTableInv
  obtain ⟨hres, hst⟩ := @fsCommitWrites_buffered (fsRun s calls) e file buf hi
  rw [hres, hst]
  by_cases hm : (fsRun s calls).mounted = true
  · rcases @fsAtomicUpdate_cases e (fsRun s calls) file.filename buf _ file.inodeIdx ht hm hi
      (named_used.2 ⟨hi.2, rfl, hname⟩) hsafe.1 with
      ⟨herr, hs, -⟩ | ⟨hok, b, n, s₂, s₃, t, start, hst, h⟩
    · rw [hs]
      exact ⟨fun hok => absurd hok herr, fun _ _ _ => rfl⟩
    · have hland := hsafe.2 b n hst h.fits
      have hn := storedForm_size_le buf.size_le hst
      refine ⟨fun _ => ⟨(h.used _).2 hi, (h.orig hi).1, b, n, hst, (h.orig hi).2.2.2.2.2.2,
        (h.fileByte_iff ht hn hi).2 hland⟩, fun j hj hu => h.off ?_ hj⟩
      rwa [h.used, or_self] at hu
  · have hblock := @fsAtomicUpdate_blocked e (fsRun s calls) file.filename buf.bytes buf.size
      ((fsRun s calls).dirTable file.inodeIdx).parentId fun h => hm h.1
    rw [hblock.2]
    exact ⟨fun hok => absurd hok hblock.1, fun _ _ _ => rfl⟩

/-- Nothing happens to `a` between open and close. -/
theorem fsCommitWrites_in_place_oneFile :
    CommitInPlace .plain (fsRun oneFile [])
      (fsCommitWrites .plain (fsRun oneFile []) (openA.buffered (.byte 3))).2.1
      (fsCommitWrites .plain (fsRun oneFile []) (openA.buffered (.byte 3))).1 openA.inodeIdx
      (.byte 3) := by
  have hnone : firstIdx (fun i => ((fsRun oneFile []).dirTable i).named1 0 (tmpName nameA))
      (fsRun oneFile []).geo.maxEntries = none := by decide
  have hsafe : ReplaceSafe .plain (fsRun oneFile []) openA.filename (.byte 3)
      ((fsRun oneFile []).dirTable openA.inodeIdx).parentId :=
    ⟨fun j h => Option.some_ne_none j (h.found.symm.trans hnone), fun b n _ _ p _ c _ => .inl rfl⟩
  exact fsCommitWrites_in_place oneFile (fsRun_wellFormed_of (freshFs_wellFormed _ _ _) _) nameA 0
    openA rfl [] trivial rfl .plain (.byte 3) hsafe

/-- `a`, held open for writing, is renamed to `b`: the commit leaves `b` and creates a new `a`. -/
theorem fsCommitWrites_creates :
    let s := fsRun oneFile [(.plain, .rename nameA nameB 0)]
    let r := fsCommitWrites .plain s (openA.buffered (.byte 3))
    WellFormed oneFile ∧ fsOpen oneFile nameA 0 = (.ok, some openA) ∧
      (Used s 1 ∧ (s.dirTable 1).filename = nameB) ∧ r.1 = .ok ∧
      r.2.1.dirTable 1 = s.dirTable 1 ∧ fileByte r.2.1 1 0 = 1 ∧
      ¬ Used s 2 ∧ Used r.2.1 2 ∧ (r.2.1.dirTable 2).filename = nameA := by
  refine ⟨fsRun_wellFormed_of (freshFs_wellFormed _ _ _) _, rfl, ?_⟩
  decide

end Commit

end EsdumanOS
