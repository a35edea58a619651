import EsdumanOS.Proofs.Invariant

/-!
# Atomic replace

`fs_atomic_update` deletes whatever already bears the temporary name. It is the atomic replacement
it is meant to be just when no entry stands in the way of that name and the block layer takes the
new data (`fsAtomicUpdate_atomic_iff`).
-/

namespace EsdumanOS

open Lib List Content

section Data

variable {s s' : Fs} {l : List ℕ}

lemma sector_lt (p : ℕ) : p % clusterBytes / 512 < fsClusterSectors := by
  simp only [clusterBytes, fsClusterSectors]
  omega

lemma dataByte_congr (hg : s'.geo = s.geo) (h : ∀ c ∈ l, ∀ k < fsClusterSectors,
      s'.disk (fsClusterToSector s.geo c + k) = s.disk (fsClusterToSector s.geo c + k)) (p : ℕ) :
    dataByte s' l p = dataByte s l p := by
  unfold dataByte
  rcases hc : l[p / clusterBytes]? with _ | c
  · rfl
  · simp only [hg, h c (mem_of_getElem? hc) _ (sector_lt p)]

lemma dataStart_le_sector {g : Geometry} {c : ℕ} (hc : c < g.totalClusters) (k : ℕ) :
    g.dataStart ≤ fsClusterToSector g c + k := by
  rw [fsClusterToSector_eq hc]
  omega

def Lands (e : Env) (s : Fs) (b : Buf) (n : ℕ) (l : List ℕ) : Prop :=
  ∀ p < n, ∀ c, l[p / clusterBytes]? = some c →
    e.writeStatus (fsClusterToSector s.geo c + p % clusterBytes / 512)
        (sectorData b n (p / 512 * 512)) = .ok ∨
      s.disk (fsClusterToSector s.geo c + p % clusterBytes / 512) (p % 512) = b p

variable {e : Env} {name : Name} {b : Buf} {n parentId slot start : ℕ}

lemma Created.dataByte_eq (h : Created e s s' slot start name b n parentId) {p c : ℕ}
    (hp : p < n) (hc : (newChain s n)[p / clusterBytes]? = some c) :
    dataByte s' (newChain s n) p =
      if e.writeStatus (fsClusterToSector s.geo c + p % clusterBytes / 512)
          (sectorData b n (p / 512 * 512)) = .ok then b p
      else s.disk (fsClusterToSector s.geo c + p % clusterBytes / 512) (p % 512) := by
  have hpo : p / clusterBytes * clusterBytes + p % clusterBytes / 512 * 512 = p / 512 * 512 := by
    simp only [clusterBytes, fsClusterSectors]
    omega
  have hi := h.inside _ c hc _ (sector_lt p)
  rw [hpo] at hi
  have hb : sectorData b n (p / 512 * 512) (p % 512) = b p := by
    rw [sectorData, if_pos (by omega), Nat.div_add_mod']
  simp only [dataByte, hc, h.geo, hi, landed]
  split_ifs
  · exact hb
  · rfl

/-- The clusters of a new file hold its content just when every sector landed. -/
lemma Created.holds_iff (hs : n + clusterBytes ≤ 2 ^ 32) (hf : CreateFits s name n parentId)
    (h : Created e s s' slot start name b n parentId) :
    (∀ p < n, dataByte s' (newChain s n) p = b p) ↔ Lands e s b n (newChain s n) := by
  have hle : ∀ p < n, p / clusterBytes < (newChain s n).length := fun p hp => by
    rw [newChain, length_take_of_le hf.room, clustersNeeded_eq hs]
    simp only [clustersFor, clusterBytes, fsClusterSectors]
    omega
  constructor
  · intro ha p hp c hc
    have := ha p hp
    rw [h.dataByte_eq hp hc] at this
    split_ifs at this with hw
    · exact .inl hw
    · exact .inr this
  · intro hl p hp
    obtain ⟨c, hc⟩ : ∃ c, (newChain s n)[p / clusterBytes]? = some c :=
      ⟨_, getElem?_eq_getElem (hle p hp)⟩
    rw [h.dataByte_eq hp hc]
    split_ifs with hw
    · rfl
    · exact (hl p hp c hc).resolve_left hw

lemma Created.dataByte_old (ht : TableInv s) (hf : CreateFits s name n parentId)
    (h : Created e s s' slot start name b n parentId) {j : ℕ} (hj : Used s j) (p : ℕ) :
    dataByte s' (chainOf s j) p = dataByte s (chainOf s j) p := by
  have hlt : ∀ c ∈ chainOf s j, c < s.geo.totalClusters := fun c hc => ht.mem_chain hj hc
  refine dataByte_congr h.geo (fun c hc k hk => ?_) p
  refine h.outside _ (dataStart_le_sector (hlt c hc) k) ?_
  refine not_inClusters (fun x hx => (mem_newChain hx).2.1) (hlt c hc) hk fun hcn => ?_
  exact (h.inserted hf).disjoint_old ht hj hcn hc

lemma dataByte_of_disk (hg : s'.geo = s.geo) (h : ∀ r, s.geo.dataStart ≤ r → s'.disk r = s.disk r)
    (hl : ∀ c ∈ l, c < s.geo.totalClusters) (p : ℕ) : dataByte s' l p = dataByte s l p :=
  dataByte_congr hg (fun c hc k _ => h _ (dataStart_le_sector (hl c hc) k)) p

end Data

namespace Replaced

variable {e : Env} {s1 s₂ s₃ s' : Fs} {o t start n parentId : ℕ} {name : Name} {b : Buf}

variable (h : Replaced e s1 s₂ s₃ s' o t start name b n parentId)
include h

lemma tmp_used : Used s₂ t := ((h.created.inserted h.fits).used t).2 (Or.inl rfl)

lemma geo : s'.geo = s1.geo := h.removed.geo.trans (h.swapped.geo.trans h.created.geo)

lemma used (j : ℕ) : Used s' j ↔ Used s1 j := by
  have hi := h.created.inserted h.fits
  rw [h.removed.used, h.swapped.used, hi.used]
  constructor
  · rintro ⟨rfl | hj, hjt⟩
    · exact absurd rfl hjt
    · exact hj
  · exact fun hj => ⟨.inr hj, hi.ne_of_used hj⟩

lemma off {j : ℕ} (hj : Used s1 j) (hjo : j ≠ o) : s'.dirTable j = s1.dirTable j := by
  have hi := h.created.inserted h.fits
  have hjt := hi.ne_of_used hj
  rw [h.removed.off hjt, h.swapped.off j hjo hjt, hi.off hjt]

lemma tableInv (ht : TableInv s1) : TableInv s' := by
  have hi := h.created.inserted h.fits
  have h2 := hi.tableInv ht
  have h3 := h.swapped.tableInv h2 h.orig_used h.tmp_used
  exact h.removed.tableInv h3 ((h.swapped.used t).2 h.tmp_used)

lemma chainOf_eq (ht : TableInv s1) {j : ℕ} (hj : Used s1 j) :
    chainOf s' j = if j = o then newChain s1 n else chainOf s1 j := by
  have hi := h.created.inserted h.fits
  have hjt := hi.ne_of_used hj
  have hj2 : Used s₂ j := (hi.used j).2 (.inr hj)
  have h2 := hi.tableInv ht
  have h3 := h.swapped.tableInv h2 h.orig_used h.tmp_used
  rw [(h.removed.ownsChain h3 ((h.swapped.used t).2 h.tmp_used) j ((h.used j).2 hj)).chainOf_eq,
    (h.swapped.ownsChain h2 h.orig_used h.tmp_used j ((h.swapped.used j).2 hj2)).chainOf_eq]
  split_ifs with hjo
  · rw [hjo, Equiv.swap_apply_left, hi.owns.chainOf_eq]
  · rw [Equiv.swap_apply_of_ne_of_ne hjo hjt, (hi.ownsChain_old ht hj).chainOf_eq]

lemma disk (r : ℕ) (hr : s1.geo.dataStart ≤ r) : s'.disk r = s₂.disk r := by
  have h2 : s₂.geo.dataStart ≤ r := h.created.geo ▸ hr
  have h3 : s₃.geo.dataStart ≤ r := h.swapped.geo ▸ h2
  rw [h.removed.disk r h3, h.swapped.disk r h2]

lemma dataByte_eq {l : List ℕ} (hl : ∀ c ∈ l, c < s1.geo.totalClusters) (p : ℕ) :
    dataByte s' l p = dataByte s₂ l p := by
  refine dataByte_of_disk (h.removed.geo.trans h.swapped.geo) (fun r hr => ?_) (fun c hc => ?_) p
  · exact h.disk r (h.created.geo ▸ hr)
  · rw [h.created.geo]
    exact hl c hc

lemma fileByte_old (ht : TableInv s1) {j : ℕ} (hj : Used s1 j) (hjo : j ≠ o) (p : ℕ) :
    fileByte s' j p = fileByte s1 j p := by
  rw [fileByte, h.chainOf_eq ht hj, if_neg hjo,
    h.dataByte_eq (fun c hc => ht.mem_chain hj hc), h.created.dataByte_old ht h.fits hj]
  rfl

lemma orig (ho : Used s1 o) :
    (s'.dirTable o).entryId = (s1.dirTable o).entryId ∧
      (s'.dirTable o).ownerUid = (s1.dirTable o).ownerUid ∧
      (s'.dirTable o).ownerGid = (s1.dirTable o).ownerGid ∧
      (s'.dirTable o).mode = (s1.dirTable o).mode ∧
      (s'.dirTable o).parentId = (s1.dirTable o).parentId ∧
      (s'.dirTable o).filename = (s1.dirTable o).filename ∧
      (s'.dirTable o).fileSize = n := by
  have hi := h.created.inserted h.fits
  have hot := hi.ne_of_used ho
  rw [h.removed.off hot, h.swapped.entryId, h.swapped.ownerUid, h.swapped.ownerGid, h.swapped.mode,
    h.swapped.parentId, h.swapped.filename, h.swapped.fileSize, hi.off hot,
    Equiv.swap_apply_left, hi.at_eq]
  exact ⟨rfl, rfl, rfl, rfl, rfl, rfl, rfl⟩

/-- The original has its new content just when the block layer took it. -/
lemma fileByte_iff (ht : TableInv s1) (hs : n + clusterBytes ≤ 2 ^ 32) (ho : Used s1 o) :
    (∀ p < n, fileByte s' o p = b p) ↔ Lands e s1 b n (newChain s1 n) := by
  rw [← h.created.holds_iff hs h.fits]
  refine forall₂_congr fun p _ => ?_
  rw [fileByte, h.chainOf_eq ht ho, if_pos rfl, h.dataByte_eq fun c hc => (mem_newChain hc).2.1]

end Replaced

section Atomic

structure AtomicReplace (e : Env) (s s' : Fs) (r : Errno) (i : ℕ) (name : Name) (content : Content)
    (parentId : ℕ) : Prop where
  replaced : r = .ok → (∀ j, Used s' j ∧ (s'.dirTable j).named parentId name = true ↔ j = i) ∧
    (s'.dirTable i).entryId = (s.dirTable i).entryId ∧
    (s'.dirTable i).ownerUid = (s.dirTable i).ownerUid ∧
    (s'.dirTable i).ownerGid = (s.dirTable i).ownerGid ∧
    (s'.dirTable i).mode = (s.dirTable i).mode ∧
    ∃ b n, storedForm e content.bytes content.size = some (b, n) ∧
      (s'.dirTable i).fileSize = n ∧ ∀ p < n, fileByte s' i p = b p
  kept : r ≠ .ok → Used s' i ∧ (s'.dirTable i).named parentId name = true ∧
    (s'.dirTable i).startCluster = (s.dirTable i).startCluster ∧
    (s'.dirTable i).fileSize = (s.dirTable i).fileSize ∧
    ∀ p < (s.dirTable i).fileSize, fileByte s' i p = fileByte s i p
  others : ∀ j, j ≠ i → Used s j → s'.dirTable j = s.dirTable j

def ReplaceSafe (e : Env) (s : Fs) (name : Name) (content : Content) (parentId : ℕ) : Prop :=
  (∀ j, ¬ Removes e s (tmpName name) parentId j) ∧
    ∀ b n, storedForm e content.bytes content.size = some (b, n) →
      CreateFits s (tmpName name) n parentId → Lands e s b n (newChain s n)

variable {e : Env} {s : Fs} {name : Name} {content : Content} {parentId i : ℕ}

lemma fsAtomicUpdate_removes (ht : TableInv s) (hi : Used s i)
    (hn : (s.dirTable i).named parentId name = true) {j : ℕ}
    (hr : Removes e s (tmpName name) parentId j) :
    (fsAtomicUpdate e s name content.bytes content.size parentId).2.geo = s.geo ∧
      ¬ Used (fsAtomicUpdate e s name content.bytes content.size parentId).2 j := by
  have hre := fsDelete_removed hr (ht.chain j hr.used.1)
  have hg : ¬ Used (cleared e s name parentId) j := fun h => ((hre.used j).1 h).2 rfl
  rcases @fsAtomicUpdate_found e s name content.bytes content.size parentId hr.mounted hr.level
    i hi hn ht content.size_le with ⟨-, hs, -⟩ | ⟨-, b, n, s₂, s₃, o', t, start, -, -, h⟩
  · rw [hs]
    exact ⟨hre.geo, hg⟩
  · rw [h.used]
    exact ⟨h.geo.trans hre.geo, hg⟩

lemma fsAtomicUpdate_cases (ht : TableInv s) (hm : s.mounted = true) (hi : Used s i)
    (hn : (s.dirTable i).named parentId name = true)
    (hr : ∀ j, ¬ Removes e s (tmpName name) parentId j) :
    ((fsAtomicUpdate e s name content.bytes content.size parentId).1 ≠ .ok ∧
      (fsAtomicUpdate e s name content.bytes content.size parentId).2 = s ∧
      ∀ b n, storedForm e content.bytes content.size = some (b, n) →
        ¬ CreateFits s (tmpName name) n parentId) ∨
    ((fsAtomicUpdate e s name content.bytes content.size parentId).1 = .ok ∧
      ∃ b n s₂ s₃ t start, storedForm e content.bytes content.size = some (b, n) ∧
        Replaced e s s₂ s₃ (fsAtomicUpdate e s name content.bytes content.size parentId).2 i t
          start name b n parentId) := by
  by_cases hl : .immutable ≤ e.secLevel
  · exact .inl (by simp [fsAtomicUpdate, storedForm, hm, hl])
  have hs : cleared e s name parentId = s := fsDelete_refused hr
  rcases @fsAtomicUpdate_found e s name content.bytes content.size parentId hm hl i hi hn ht
    content.size_le with ⟨he, h1, hno⟩ | ⟨hok, b, n, s₂, s₃, o', t, start, hst, ho', h⟩
  · exact .inl ⟨he, h1.trans hs, by rwa [hs] at hno⟩
  · rw [hs] at h
    have hne : name ≠ tmpName name := fun hna => by
      have hfresh := h.fits.fresh i hi.1
      rw [← hna, hn] at hfresh
      exact Bool.true_eq_false_eq_False hfresh
    rw [if_neg hne] at ho'
    subst ho'
    exact .inr ⟨hok, b, n, s₂, s₃, t, start, hst, h⟩

lemma atomicReplace_of_replaced (ht : TableInv s) (hi : Used s i)
    (hn : (s.dirTable i).named parentId name = true) {s₂ s₃ s' : Fs} {t start n : ℕ} {b : Buf}
    (hst : storedForm e content.bytes content.size = some (b, n))
    (h : Replaced e s s₂ s₃ s' i t start name b n parentId)
    (hl : Lands e s b n (newChain s n)) : AtomicReplace e s s' .ok i name content parentId where
  replaced _ := by
    obtain ⟨hid, hui, hg, hm, hp, hna, hs⟩ := h.orig hi
    have hu : Used s' i := (h.used i).2 hi
    obtain ⟨-, hpi, hni⟩ := named_used.1 hn
    have hnm : (s'.dirTable i).named parentId name = true :=
      named_used.2 ⟨hu.2, hp.trans hpi, hna.trans hni⟩
    refine ⟨fun j => ⟨fun hj => ?_, fun hj => hj ▸ ⟨hu, hnm⟩⟩, hid, hui, hg, hm, b, n, hst,
      hs, (h.fileByte_iff ht (storedForm_size_le content.size_le hst) hi).2 hl⟩
    obtain ⟨-, hpj, hnj⟩ := named_used.1 hj.2
    exact (h.tableInv ht).unique j i hj.1 hu (hpj.trans (hp.trans hpi).symm)
      (hnj.trans (hna.trans hni).symm)
  kept herr := absurd rfl herr
  others _ hji hj := h.off hj hji

/-- An update is an atomic replacement exactly when no entry in the way bears the temporary name and
the block layer takes the new data. -/
theorem fsAtomicUpdate_atomic_iff (e : Env) (s : Fs) (name : Name) (content : Content)
    (parentId i : ℕ) (ht : TableInv s) (hm : s.mounted = true) (hi : Used s i)
    (hn : (s.dirTable i).named parentId name = true) :
    AtomicReplace e s (fsAtomicUpdate e s name content.bytes content.size parentId).2
        (fsAtomicUpdate e s name content.bytes content.size parentId).1 i name content parentId ↔
      ReplaceSafe e s name content parentId := by
  constructor
  · intro h
    have hclear : ∀ j, ¬ Removes e s (tmpName name) parentId j := fun j hr => by
      obtain ⟨hg, hgone⟩ := @fsAtomicUpdate_removes e s name content parentId i ht hi hn j hr
      by_cases hji : j = i
      · subst hji
        by_cases hok : (fsAtomicUpdate e s name content.bytes content.size parentId).1 = .ok
        · exact hgone (((h.replaced hok).1 j).2 rfl).1
        · exact hgone (h.kept hok).1
      · refine hgone ?_
        rw [Used, hg, h.others j hji hr.used.1]
        exact hr.used.1
    refine ⟨hclear, fun b n hst hfit => ?_⟩
    rcases @fsAtomicUpdate_cases e s name content parentId i ht hm hi hn hclear with
      ⟨-, -, hno⟩ | ⟨hok, b', n', s₂, s₃, t, start, hst', hrep⟩
    · exact absurd hfit (hno b n hst)
    · obtain ⟨b'', n'', hst'', -, hbytes⟩ := (h.replaced hok).2.2.2.2.2
      obtain ⟨rfl, rfl⟩ : b' = b ∧ n' = n := by simpa [hst] using hst'.symm
      obtain ⟨rfl, rfl⟩ : b'' = b' ∧ n'' = n' := by simpa [hst] using hst''.symm
      exact (hrep.fileByte_iff ht (storedForm_size_le content.size_le hst) hi).1 hbytes
  · rintro ⟨hclear, hland⟩
    rcases @fsAtomicUpdate_cases e s name content parentId i ht hm hi hn hclear with
      ⟨herr, hs, -⟩ | ⟨hok, b, n, s₂, s₃, t, start, hst, hrep⟩
    · rw [hs]
      exact ⟨fun hok => absurd hok herr, fun _ => ⟨hi, hn, rfl, rfl, fun _ _ => rfl⟩,
        fun _ _ _ => rfl⟩
    · rw [hok]
      exact atomicReplace_of_replaced ht hi hn hst hrep (hland b n hst hrep.fits)

end Atomic

def tinyGeometry : Geometry where
  dirStart := 1
  fatStart := 2
  dataStart := 3
  maxEntries := 4
  totalClusters := 8
  maxEntries_le := by decide
  totalClusters_le := by decide
  dir_before_fat := by decide
  fat_before_data := by decide
  data_lt := by decide

def tinyFs : Fs := freshFs tinyGeometry true fun _ _ => 0

def Content.byte (v : UInt8) : Content := ⟨fun _ => v, 1, by decide⟩

def nameA : Name := ['a']
def nameATmp : Name := ['a', '.', 't', 'm', 'p']

def twoFiles : Fs :=
  fsRun tinyFs [(.plain, .createRaw nameA (.byte 1) 0), (.plain, .createRaw nameATmp (.byte 2) 0)]

lemma twoFiles_tableInv : TableInv twoFiles :=
  (fsRun_wellFormed_of (freshFs_wellFormed _ _ _) _).toTableInv

/-- Updating `a` succeeds and takes the unrelated `a.tmp` with it. -/
theorem fsAtomicUpdate_loses_tmp :
    TableInv twoFiles ∧ twoFiles.mounted = true ∧
      (Used twoFiles 1 ∧ (twoFiles.dirTable 1).named 0 nameA = true ∧
        (twoFiles.dirTable 1).fileType = ftRegular) ∧
      (Used twoFiles 2 ∧ (twoFiles.dirTable 2).named 0 nameATmp = true) ∧
      (fsAtomicUpdate .plain twoFiles nameA (byte 3).bytes 1 0).1 = .ok ∧
      ¬ Used (fsAtomicUpdate .plain twoFiles nameA (byte 3).bytes 1 0).2 2 ∧
      ¬ AtomicReplace .plain twoFiles
        (fsAtomicUpdate .plain twoFiles nameA (byte 3).bytes 1 0).2
        (fsAtomicUpdate .plain twoFiles nameA (byte 3).bytes 1 0).1 1 nameA (.byte 3) 0 := by
  have hgone : ((fsAtomicUpdate .plain twoFiles nameA (byte 3).bytes 1 0).2.dirTable
      2).isUsed ≠ (twoFiles.dirTable 2).isUsed := by decide
  refine ⟨twoFiles_tableInv, by decide, by decide, by decide, by decide, by decide, fun h => ?_⟩
  exact hgone (congrArg DirEntry.isUsed (h.others 2 (by decide) (by decide)))

def oneFile : Fs :=
  fsRun tinyFs [(.plain, .createRaw nameA (.byte 1) 0)]

/-- Without the clash the update of `a` is atomic. -/
theorem fsAtomicUpdate_atomic_oneFile :
    AtomicReplace .plain oneFile
      (fsAtomicUpdate .plain oneFile nameA (byte 3).bytes (byte 3).size 0).2
      (fsAtomicUpdate .plain oneFile nameA (byte 3).bytes (byte 3).size 0).1
      1 nameA (.byte 3) 0 := by
  refine (fsAtomicUpdate_atomic_iff .plain oneFile nameA (.byte 3) 0 1
    (fsRun_wellFormed_of (freshFs_wellFormed _ _ _) _).toTableInv (by decide) (by decide)
    (by decide)).2 ⟨fun j h => ?_, fun b n _ _ p _ c _ => .inl rfl⟩
  have hnone : firstIdx (fun i => (oneFile.dirTable i).named1 0 (tmpName nameA))
      oneFile.geo.maxEntries = none := by decide
  exact Option.some_ne_none j (h.found.symm.trans hnone)

end EsdumanOS
