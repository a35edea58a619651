import EsdumanOS.Proofs.OpenFiles
import EsdumanOS.ReadBack

/-!
# What is written is read back

A file that has been created is `Stored`: its entry stands in the table and its chain holds the
content. Creations and deletions of other files leave it so (`Stored.step`), and a session of reads
is the session on the content (`fsReadRaw_reads_back`).
-/

namespace EsdumanOS

open Lib Function Content

structure Stored (s : Fs) (i : ℕ) (d : DirEntry) (c : Content) : Prop where
  wellFormed : WellFormed s
  mounted : s.mounted = true
  used : Used s i
  entry : s.dirTable i = d
  size : d.fileSize = c.size
  start : d.startCluster ≠ 0
  bytes : ∀ p < c.size, fileByte s i p = c.bytes p

variable {e : Env} {s : Fs} {i : ℕ} {d : DirEntry} {c : Content} {name : Name} {parentId : ℕ}

lemma fsCreateFileRaw_stored (hw : WellFormed s) (hd : ∀ r b, e.writeStatus r b = .ok)
    (hok : (fsCreateFileRaw e s name c.bytes c.size parentId).1 = .ok) :
    ∃ i start, Stored (fsCreateFileRaw e s name c.bytes c.size parentId).2 i
      (newFileEntry e i name start c.size parentId) c := by
  have hs := c.size_clusters
  rcases @fsCreateFileRaw_cases e s name c.bytes c.size parentId hs with
    ⟨he, -⟩ | ⟨-, hf, slot, start, hc⟩
  · exact absurd hok he
  have hi := hc.inserted hf
  refine ⟨slot, start, hc.wellFormed hw hf hs, hc.mounted.trans hf.mounted,
    (hi.used slot).2 (.inl rfl), ?_, rfl, hc.start_ne, fun p hp => ?_⟩
  · rw [hc.dirTable, update_self]
  · rw [fileByte, hi.owns.chainOf_eq]
    exact (hc.holds_iff hs hf).2 (fun p _ c _ => .inl (hd _ _)) p hp

section

variable (h : Stored s i d c)
include h

lemma Stored.keep {s' : Fs} (hw : WellFormed s') (hm : s'.mounted = s.mounted)
    (he : s'.dirTable i = s.dirTable i) (hk : Keeps s s' i) : Stored s' i d c := by
  refine ⟨hw, hm.trans h.mounted, hk.used, he.trans h.entry, h.size, h.start, fun p hp => ?_⟩
  rw [fileByte, hk.chain, hk.data]
  exact h.bytes p hp

lemma Stored.createRaw (name : Name) (c' : Content) (parentId : ℕ) :
    Stored (fsCreateFileRaw e s name c'.bytes c'.size parentId).2 i d c := by
  have hs := c'.size_clusters
  rcases @fsCreateFileRaw_cases e s name c'.bytes c'.size parentId hs with
    ⟨-, heq, -⟩ | ⟨-, hf, slot, start, hc⟩
  · rwa [heq]
  · refine h.keep (fsCreateFileRaw_wellFormed h.wellFormed hs) hc.mounted ?_
      (fsCreateFileRaw_keeps h.wellFormed.toTableInv h.used hs)
    rw [hc.dirTable, update_of_ne ((hc.inserted hf).ne_of_used h.used)]

lemma Stored.delete {name' : Name} {parentId' : ℕ}
    (ho : ¬ (name' = d.filename ∧ parentId' = d.parentId)) :
    Stored (fsDelete e s name' parentId').2 i d c := by
  have hno : ∀ j, Removes e s name' parentId' j → i ≠ j := by
    rintro j hj rfl
    obtain ⟨-, hp, hn⟩ := hj.used
    rw [h.entry] at hp hn
    exact ho ⟨hn.symm, hp.symm⟩
  rcases fsDelete_cases h.wellFormed.toTableInv with heq | ⟨j, hj, hre⟩
  · rwa [heq]
  · refine h.keep (fsDelete_wellFormed h.wellFormed _ _) hre.mounted ?_
      (fsDelete_keeps h.wellFormed.toTableInv h.used fun hr => hno i hr rfl)
    rw [hre.dirTable, update_of_ne (hno j hj)]

lemma Stored.step {op : FsOp} (hop : op.Elsewhere d.filename d.parentId) (e : Env) :
    Stored (op.run e s).2 i d c := by
  cases op with
  | createRaw name c' parentId => exact h.createRaw name c' parentId
  | delete name' parentId' => exact h.delete hop
  | _ => exact hop.elim

lemma Stored.run {calls : List (Env × FsOp)}
    (hc : ∀ call ∈ calls, call.2.Elsewhere d.filename d.parentId) :
    Stored (fsRun s calls) i d c := by
  have hs : ∀ t, ∀ call ∈ calls, Stored t i d c → Stored (fsStep t call) i d c :=
    fun t call hmem ht => ht.step (hc call hmem) call.1
  exact foldl_invariant_mem calls hs h

lemma Stored.fsOpen (hu : d.isUsed = 1) :
    ∃ file, fsOpen s d.filename d.parentId = (.ok, some file) ∧
      file.startCluster = d.startCluster ∧ file.fileSize = c.size ∧ file.currentOffset = 0 := by
  have hf : firstIdx (fun j => (s.dirTable j).named1 d.parentId d.filename) s.geo.maxEntries =
      some i := by
    refine firstIdx_of_unique h.used.1 (by simp [h.entry, DirEntry.named1, hu]) fun j hj hn => ?_
    obtain ⟨huj, hp, hna⟩ := named1_used hn
    refine h.wellFormed.unique j i ⟨hj, by omega⟩ h.used ?_ ?_
    · rw [hp, h.entry]
    · rw [hna, h.entry]
  unfold EsdumanOS.fsOpen
  rw [h.mounted, if_neg (by simp), hf]
  exact ⟨_, rfl, by rw [h.entry], by rw [h.entry, h.size], rfl⟩

end

lemma Content.slice_length (off n : ℕ) : (c.slice off n).length = min n (c.size - off) := by
  simp [slice]

lemma fsReadRaw_offset {file : VfsFile} {size : ℕ}
    (he : file.currentOffset + (fsReadRaw e s file size).1.length < 2 ^ 32) :
    (fsReadRaw e s file size).2 =
      { file with currentOffset := file.currentOffset + (fsReadRaw e s file size).1.length } := by
  unfold fsReadRaw at he ⊢
  by_cases hp : file.fileSize ≤ file.currentOffset
  · rw [if_pos hp]
    rfl
  rw [if_neg hp] at he ⊢
  rcases hs : skipClusters s (file.currentOffset / clusterBytes) file.startCluster with
    _ | current
  · rfl
  · simp only [hs] at he ⊢
    rw [u32_of_lt he]

/-- With no read fault a read returns the slice of the content and moves the offset over it. -/
lemma Stored.read (h : Stored s i d c) (he : ∀ r, e.readFault r = none) {file : VfsFile}
    (hs : file.startCluster = d.startCluster) (hfile : file.fileSize = c.size) {size : ℕ}
    (hsi : size ≤ 2 ^ 31) :
    fsReadRaw e s file size = (c.slice file.currentOffset size,
      { file with currentOffset :=
          file.currentOffset + (c.slice file.currentOffset size).length }) := by
  by_cases hp : c.size ≤ file.currentOffset
  · have hn : c.slice file.currentOffset size = [] := by
      simp [Content.slice, Nat.sub_eq_zero_of_le hp]
    rw [hn, fsReadRaw, if_pos (hfile ▸ hp)]
    rfl
  · have hca := c.size_le
    have hc := h.wellFormed.chain i h.used (h.entry ▸ h.start)
    have hl := h.wellFormed.toTreeInv.fileSize_le h.used (h.entry ▸ h.start)
    rw [h.entry, ← hs] at hc
    rw [h.entry, h.size, ← hfile] at hl
    have hr : (fsReadRaw e s file size).1 = c.slice file.currentOffset size := by
      rw [fsReadRaw_eq he hc hl (by omega) (by omega), hfile]
      refine List.map_congr_left fun k hk => ?_
      rw [List.mem_range] at hk
      exact h.bytes _ (by omega)
    have hsl := slice_length (c := c) file.currentOffset size
    refine Prod.ext hr ?_
    rw [fsReadRaw_offset (by rw [hr]; omega), hr]

lemma Stored.session : ∀ (events : List ReadEvent) {s : Fs} {file : VfsFile}, Stored s i d c →
    file.startCluster = d.startCluster → file.fileSize = c.size →
    (∀ ev ∈ events, ev.Fair d.filename d.parentId) →
      readSession fsReadRaw s file events = c.session file.currentOffset events
  | [], _, _, _, _, _, _ => rfl
  | .other e op :: events, s, file, h, hs, hfile, hf =>
    Stored.session events (h.step (hf (.other e op) (by simp)) e) hs hfile
      fun ev hev => hf ev (by simp [hev])
  | .read e size :: events, s, file, h, hs, hfile, hf => by
    obtain ⟨hsi, he⟩ := hf (.read e size) (by simp)
    rw [readSession, Content.session, h.read he hs hfile hsi]
    refine congrArg _ (Stored.session events h hs hfile fun ev hev => hf ev (by simp [hev]))
  | .seek offset :: events, s, file, h, hs, hfile, hf =>
    Stored.session events h hs hfile fun ev hev => hf ev (by simp [hev])

/-- A file created raw, opened after any calls elsewhere and read in any pieces, returns its
content. -/
theorem fsReadRaw_reads_back (e : Env) (s : Fs) (hw : WellFormed s)
    (hdev : ∀ r b, e.writeStatus r b = .ok) (name : Name) (c : Content) (parentId : ℕ)
    (hok : (fsCreateFileRaw e s name c.bytes c.size parentId).1 = .ok)
    (calls : List (Env × FsOp)) (hcalls : ∀ call ∈ calls, call.2.Elsewhere name parentId)
    (events : List ReadEvent) (hfair : ∀ ev ∈ events, ev.Fair name parentId) :
    ∃ file, fsOpen (fsRun (fsCreateFileRaw e s name c.bytes c.size parentId).2 calls) name
        parentId = (.ok, some file) ∧
      readSession fsReadRaw (fsRun (fsCreateFileRaw e s name c.bytes c.size parentId).2 calls) file
        events = c.session 0 events := by
  obtain ⟨i, start, hstored⟩ := fsCreateFileRaw_stored hw hdev hok
  have hrun := hstored.run hcalls
  obtain ⟨file, hopen, hstart, hsize, hzero⟩ := hrun.fsOpen rfl
  exact ⟨file, hopen, hzero ▸ hrun.session events hstart hsize hfair⟩

/-- Another file is created and deleted, and `a` is read from the middle. -/
theorem fsReadRaw_reads_back_sample :
    ∃ file, fsOpen (fsRun (fsCreateFileRaw .plain tinyFs nameA (byte 1).bytes 1 0).2
        [(.plain, .createRaw nameB (.byte 2) 0)]) nameA 0 = (.ok, some file) ∧
      readSession fsReadRaw (fsRun (fsCreateFileRaw .plain tinyFs nameA (byte 1).bytes 1
        0).2 [(.plain, .createRaw nameB (.byte 2) 0)]) file
          [.read .plain 1, .other .plain (.delete nameB 0), .seek 0, .read .plain 5] =
        (byte 1).session 0
          [.read .plain 1, .other .plain (.delete nameB 0), .seek 0, .read .plain 5] := by
  refine fsReadRaw_reads_back .plain tinyFs (freshFs_wellFormed _ _ _) (fun _ _ => rfl) nameA
    (.byte 1) 0 (by decide) _ ?_ _ ?_
  · simp [FsOp.Elsewhere]
  · simp [ReadEvent.Fair, FsOp.Elsewhere, Env.plain, nameA, nameB]

end EsdumanOS
