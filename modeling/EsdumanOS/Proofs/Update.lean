import EsdumanOS.Proofs.Wellformed

/-!
# The steps of an atomic update

`fs_atomic_update` on a name that exists deletes the temporary name, creates the temporary file,
exchanges its data with the original's and deletes it again. `fsAtomicUpdate_found`: either only the
first deletion has happened, or the whole sequence.
-/

namespace EsdumanOS

open Lib Function DirEntry

variable {e : Env} {s s' : Fs} {name : Name} {content : Buf} {size parentId : ℕ}

section Swap

variable {o t : ℕ}

lemma swapData_off {j : ℕ} (hj : j ≠ o) (hjt : j ≠ t) :
    swapData e s o t j = s.dirTable j := by
  simp [swapData, hj, hjt]

lemma swapData_keeps {α : Type*} (f : DirEntry → α)
    (hf : ∀ d c z m, f { d with startCluster := c, fileSize := z, mtime := m } = f d) (j : ℕ) :
    f (swapData e s o t j) = f (s.dirTable j) := by
  have ho : ∀ k, f (update s.dirTable o { s.dirTable o with
      startCluster := (s.dirTable t).startCluster
      fileSize := (s.dirTable t).fileSize
      mtime := e.now } k) = f (s.dirTable k) := fun k => by
    by_cases hk : k = o
    · rw [hk, update_self, hf]
    · rw [update_of_ne hk]
  by_cases hj : j = t
  · rw [swapData, hj, update_self]
    exact (hf _ _ _ _).trans (ho t)
  · rw [swapData, update_of_ne hj]
    exact ho j

lemma swapData_data (j : ℕ) :
    (swapData e s o t j).startCluster = (s.dirTable (Equiv.swap o t j)).startCluster ∧
      (swapData e s o t j).fileSize = (s.dirTable (Equiv.swap o t j)).fileSize := by
  by_cases hj : j = t
  · simp [swapData, hj]
  · by_cases hjo : j = o
    · simp [swapData, hjo, hjo ▸ hj]
    · rw [swapData_off hjo hj, Equiv.swap_apply_of_ne_of_ne hjo hj]
      exact ⟨rfl, rfl⟩

lemma swapped_of_agree (h : Agree s' (s.setDir (swapData e s o t))) : Swapped s s' o t := by
  have hd : s'.dirTable = swapData e s o t := h.dirTable
  exact
    { geo := h.geo
      mounted := h.mounted
      fat := h.fat
      disk := h.disk
      off := fun j hj hjt => hd ▸ swapData_off hj hjt
      isUsed := fun j => hd ▸ swapData_keeps isUsed (fun _ _ _ _ => rfl) j
      entryId := fun j => hd ▸ swapData_keeps entryId (fun _ _ _ _ => rfl) j
      parentId := fun j => hd ▸ swapData_keeps parentId (fun _ _ _ _ => rfl) j
      filename := fun j => hd ▸ swapData_keeps filename (fun _ _ _ _ => rfl) j
      fileType := fun j => hd ▸ swapData_keeps fileType (fun _ _ _ _ => rfl) j
      ownerUid := fun j => hd ▸ swapData_keeps ownerUid (fun _ _ _ _ => rfl) j
      ownerGid := fun j => hd ▸ swapData_keeps ownerGid (fun _ _ _ _ => rfl) j
      mode := fun j => hd ▸ swapData_keeps mode (fun _ _ _ _ => rfl) j
      startCluster := fun j => hd ▸ (swapData_data j).1
      fileSize := fun j => hd ▸ (swapData_data j).2 }

end Swap

lemma TableInv.lastIdx_named (ht : TableInv s) {i : ℕ} (hi : Used s i)
    (hn : (s.dirTable i).named parentId name = true) :
    lastIdx (fun j => (s.dirTable j).named parentId name) s.geo.maxEntries = some i := by
  refine lastIdx_of_unique hi.1 hn fun j hj hnj => ?_
  obtain ⟨hu, hp, hnm⟩ := named_used.1 hn
  obtain ⟨huj, hpj, hna⟩ := named_used.1 hnj
  exact ht.unique j i ⟨hj, huj⟩ hi (hpj.trans hp.symm) (hna.trans hnm.symm)

lemma fsDelete_cases (ht : TableInv s) : (fsDelete e s name parentId).2 = s ∨
    ∃ i, Removes e s name parentId i ∧ Removed s (fsDelete e s name parentId).2 i := by
  by_cases hr : ∃ i, Removes e s name parentId i
  · obtain ⟨i, hr⟩ := hr
    exact .inr ⟨i, hr, fsDelete_removed hr (ht.chain i hr.used.1)⟩
  · exact .inl (fsDelete_refused (not_exists.1 hr))

lemma fsDelete_tableInv (ht : TableInv s) : TableInv (fsDelete e s name parentId).2 := by
  rcases fsDelete_cases ht with h | ⟨i, hr, hre⟩
  · rwa [h]
  · exact hre.tableInv ht hr.used.1

lemma fsDelete_mounted (ht : TableInv s) :
    (fsDelete e s name parentId).2.mounted = s.mounted := by
  rcases fsDelete_cases ht with h | ⟨i, -, hre⟩
  · rw [h]
  · exact hre.mounted

lemma fsDelete_other (ht : TableInv s) {o : ℕ} (ho : Used s o)
    (hn : (s.dirTable o).parentId = parentId → (s.dirTable o).filename ≠ name) :
    Used (fsDelete e s name parentId).2 o ∧
      (fsDelete e s name parentId).2.dirTable o = s.dirTable o := by
  rcases fsDelete_cases ht with h | ⟨i, hr, hre⟩
  · rw [h]
    exact ⟨ho, rfl⟩
  · obtain ⟨-, hp, hna⟩ := hr.used
    have hoi : o ≠ i := fun h => hn (h ▸ hp) (h ▸ hna)
    exact ⟨(hre.used o).2 ⟨ho, hoi⟩, hre.off hoi⟩

/-- What the first deletion of an update leaves. -/
abbrev cleared (e : Env) (s : Fs) (name : Name) (parentId : ℕ) : Fs :=
  (fsDelete e s (tmpName name) parentId).2

/-- From the first deletion, which leaves `s₁`: the temporary file goes to slot `t`, `s₃` has its
data exchanged with that of `o`, and `s'` the temporary file freed. -/
structure Replaced (e : Env) (s₁ s₂ s₃ s' : Fs) (o t start : ℕ) (name : Name) (b : Buf)
    (n parentId : ℕ) : Prop where
  fits : CreateFits s₁ (tmpName name) n parentId
  created : Created e s₁ s₂ t start (tmpName name) b n parentId
  orig_used : Used s₂ o
  swapped : Swapped s₂ s₃ o t
  removed : Removed s₃ s' t

lemma firstIdx_named {o : ℕ} (ho : Used s o) (hn : (s.dirTable o).named parentId name = true) :
    (firstIdx (fun i => (s.dirTable i).named parentId name) s.geo.maxEntries).isNone = false := by
  rw [← Bool.not_eq_true, Option.isNone_iff_eq_none, firstIdx_eq_none, not_forall]
  exact ⟨o, by simp [ho.1, hn]⟩

lemma fsAtomicUpdate_blocked (h : ¬ (s.mounted = true ∧ ¬ .immutable ≤ e.secLevel)) :
    (fsAtomicUpdate e s name content size parentId).1 ≠ .ok ∧
      (fsAtomicUpdate e s name content size parentId).2 = s := by
  unfold fsAtomicUpdate
  split_ifs with hm hl
  · simp
  · simp
  · simp_all
  · simp_all

lemma fsAtomicUpdate_not_found (hm : s.mounted = true) (hl : ¬ .immutable ≤ e.secLevel)
    (hn : ¬ ∃ o, Used s o ∧ (s.dirTable o).named parentId name = true) :
    fsAtomicUpdate e s name content size parentId =
      fsCreateFile e s name content size parentId := by
  have hno : firstIdx (fun i => (s.dirTable i).named parentId name) s.geo.maxEntries = none := by
    refine firstIdx_eq_none.2 fun j hj => ?_
    by_contra hnj
    rw [Bool.not_eq_false] at hnj
    exact hn ⟨j, ⟨hj, (named_used.1 hnj).1⟩, hnj⟩
  simp [fsAtomicUpdate, hm, hl, hno]

section Found

variable (hm : s.mounted = true) (hl : ¬ .immutable ≤ e.secLevel) {o : ℕ} (ho : Used s o)
  (hn : (s.dirTable o).named parentId name = true)
include hm hl ho hn

lemma fsAtomicUpdate_refused {r : Errno × Fs}
    (hr : fsCreateFile e (cleared e s name parentId) (tmpName name) content size parentId = r)
    (he : r.1 ≠ .ok) :
    fsAtomicUpdate e s name content size parentId = r := by
  obtain ⟨err, t⟩ := r
  simp only [fsAtomicUpdate, hm, hl, firstIdx_named ho hn, hr]
  cases err <;> simp_all

lemma fsAtomicUpdate_swapped {s₂ : Fs} {o' t : ℕ}
    (hr : fsCreateFile e (cleared e s name parentId) (tmpName name) content size parentId =
      (.ok, s₂))
    (ho' : lastIdx (fun i => (s₂.dirTable i).named parentId name) s₂.geo.maxEntries = some o')
    (ht' : lastIdx (fun i => (s₂.dirTable i).named parentId (tmpName name)) s₂.geo.maxEntries =
      some t) :
    fsAtomicUpdate e s name content size parentId =
      (.ok, (fsDelete e (saveDirectoryToDisk e (s₂.setDir (swapData e s₂ o' t))) (tmpName name)
        parentId).2) := by
  simp [fsAtomicUpdate, hm, hl, firstIdx_named ho hn, hr, ho', ht']

/-- On a name that exists, an update stops after the first deletion, or is carried out whole. -/
lemma fsAtomicUpdate_found (ht : TableInv s) (hs : size ≤ 2 ^ 31) :
    ((fsAtomicUpdate e s name content size parentId).1 ≠ .ok ∧
      (fsAtomicUpdate e s name content size parentId).2 = cleared e s name parentId ∧
      ∀ b n, storedForm e content size = some (b, n) →
        ¬ CreateFits (cleared e s name parentId) (tmpName name) n parentId) ∨
    ((fsAtomicUpdate e s name content size parentId).1 = .ok ∧ ∃ b n s₂ s₃ o' t start,
      storedForm e content size = some (b, n) ∧ (o' = if name = tmpName name then t else o) ∧
      Replaced e (cleared e s name parentId) s₂ s₃
        (fsAtomicUpdate e s name content size parentId).2 o' t start name b n parentId) := by
  have ht1 : TableInv (cleared e s name parentId) := fsDelete_tableInv ht
  have hm1 : (cleared e s name parentId).mounted = true := (fsDelete_mounted ht).trans hm
  rcases hst : storedForm e content size with _ | ⟨b, n⟩
  · obtain ⟨he, hs1⟩ := @fsCreateFile_none e (cleared e s name parentId) (tmpName name) content size
      parentId hst
    rw [fsAtomicUpdate_refused hm hl ho hn rfl he]
    exact .inl ⟨he, hs1, by simp⟩
  have hcf := @fsCreateFile_some e (cleared e s name parentId) (tmpName name) content b size n
    parentId hst
  rcases @fsCreateFileRaw_cases e (cleared e s name parentId) (tmpName name) b n parentId
    (storedForm_size_le hs hst) with ⟨he, hs1, hf⟩ | ⟨hok, hf, t, start, hc⟩
  · rw [fsAtomicUpdate_refused hm hl ho hn hcf he]
    refine .inl ⟨he, hs1, fun b' n' h => ?_⟩
    simp only [Option.some.injEq, Prod.mk.injEq] at h
    rwa [← h.2]
  set s₂ := (fsCreateFileRaw e (cleared e s name parentId) (tmpName name) b n parentId).2
  have hi := hc.inserted hf
  have ht2 : TableInv s₂ := hi.tableInv ht1
  have htu : Used s₂ t := (hi.used t).2 (.inl rfl)
  have htn : (s₂.dirTable t).named parentId (tmpName name) = true := by
    rw [hi.at_eq]
    simp [named, newFileEntry]
  have hou : Used s₂ (if name = tmpName name then t else o) ∧
      (s₂.dirTable (if name = tmpName name then t else o)).named parentId name = true := by
    split_ifs with hna
    · exact ⟨htu, by rwa [← hna] at htn⟩
    · obtain ⟨hou, hoe⟩ := @fsDelete_other e s (tmpName name) parentId ht o ho fun _ h =>
        hna ((named_used.1 hn).2.2.symm.trans h)
      refine ⟨(hi.used o).2 (.inr hou), ?_⟩
      rwa [hi.off (hi.ne_of_used hou), hoe]
  have hres := fsAtomicUpdate_swapped hm hl ho hn (hcf.trans (Prod.ext hok rfl))
    (ht2.lastIdx_named hou.1 hou.2) (ht2.lastIdx_named htu htn)
  have hsw := swapped_of_agree (saveDirectoryToDisk_agrees e
    (s₂.setDir (swapData e s₂ (if name = tmpName name then t else o) t)))
  set s₃ := saveDirectoryToDisk e
    (s₂.setDir (swapData e s₂ (if name = tmpName name then t else o) t))
  have ht3 : TableInv s₃ := hsw.tableInv ht2 hou.1 htu
  have hty : (s₃.dirTable t).fileType = ftRegular := by
    rw [hsw.fileType, hi.at_eq]
    rfl
  have hnm : ∀ j, (s₃.dirTable j).named1 parentId (tmpName name) = true → Used s₃ j → j = t :=
    fun j hj hju => by
      obtain ⟨-, hp, hnj⟩ := named1_used hj
      obtain ⟨-, hpt, hnt⟩ := named_used.1 htn
      refine ht3.unique j t hju ((hsw.used t).2 htu) ?_ ?_
      · rw [hp, hsw.parentId, hpt]
      · rw [hnj, hsw.filename, hnt]
  have hr : Removes e s₃ (tmpName name) parentId t :=
    { mounted := hsw.mounted.trans (hc.mounted.trans hm1)
      level := hl
      found := by
        refine firstIdx_of_unique ((hsw.used t).2 htu).1 ?_ fun j hj hnj => ?_
        · simp [named1, hsw.isUsed, hsw.parentId, hsw.filename, hi.at_eq, newFileEntry]
        · refine hnm j hnj ⟨hj, ?_⟩
          rw [(named1_used hnj).1]
          decide
      empty := fun hd => absurd (hd.symm.trans hty) (by decide) }
  rw [hres]
  refine .inr ⟨rfl, b, n, s₂, s₃, _, t, start, rfl, rfl, hf, hc, hou.1, hsw, ?_⟩
  exact fsDelete_removed hr (ht3.chain t hr.used.1)

end Found

end EsdumanOS
