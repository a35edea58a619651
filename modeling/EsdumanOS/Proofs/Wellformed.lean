import EsdumanOS.Proofs.Steps

/-!
# The tables stay well formed

A call rewrites an entry (`Rewritten`), adds one with a fresh chain (`Inserted`), frees one
(`Removed`) or exchanges the data of two (`Swapped`). For each, the used slots and the chains
afterwards are computed first; `tableInv` and `treeInv` follow.
-/

namespace EsdumanOS

open Lib Function TableInv ReachesRoot

variable {s s' : Fs} {j : ℕ}

def OwnsChain (s : Fs) (i : ℕ) (l : List ℕ) : Prop :=
  ((s.dirTable i).startCluster = 0 ∧ l = []) ∨
    ((s.dirTable i).startCluster ≠ 0 ∧ ValidChain s (s.dirTable i).startCluster l)

namespace OwnsChain

variable {i j : ℕ} {l : List ℕ}

lemma chainOf_eq (h : OwnsChain s i l) : chainOf s i = l := by
  rcases h with ⟨h0, rfl⟩ | ⟨h0, hl⟩
  · exact chainOf_zero h0
  · exact EsdumanOS.chainOf_eq hl h0

lemma validChain (h : OwnsChain s i l) (h0 : (s.dirTable i).startCluster ≠ 0) :
    ValidChain s (s.dirTable i).startCluster l :=
  h.elim (fun h => absurd h.1 h0) fun h => h.2

lemma transport (h : OwnsChain s j l) (hg : s'.geo = s.geo)
    (hs : (s'.dirTable i).startCluster = (s.dirTable j).startCluster)
    (hf : ∀ x ∈ l, s'.fat x = s.fat x) : OwnsChain s' i l := by
  rw [OwnsChain, hs]
  exact h.imp id fun h => ⟨h.1, h.2.transport hg hf⟩

end OwnsChain

lemma TableInv.ownsChain (h : TableInv s) {i : ℕ} (hi : Used s i) :
    OwnsChain s i (chainOf s i) := by
  by_cases h0 : (s.dirTable i).startCluster = 0
  · exact .inl ⟨h0, chainOf_zero h0⟩
  · exact .inr ⟨h0, h.chain i hi h0⟩

lemma TableInv.build (own : ℕ → List ℕ) (ho : ∀ i, Used s i → OwnsChain s i (own i))
    (entryId : ∀ i, Used s i → (s.dirTable i).entryId = i)
    (unique : ∀ i j, Used s i → Used s j → (s.dirTable i).parentId = (s.dirTable j).parentId →
      (s.dirTable i).filename = (s.dirTable j).filename → i = j)
    (disjoint : ∀ i j, Used s i → Used s j → i ≠ j → (own i).Disjoint (own j)) : TableInv s where
  entryId := entryId
  unique := unique
  chain i hi h0 := (ho i hi).chainOf_eq ▸ (ho i hi).validChain h0
  disjoint i j hi hj hij := by
    rw [(ho i hi).chainOf_eq, (ho j hj).chainOf_eq]
    exact disjoint i j hi hj hij

lemma ReachesRoot.mono (h : ∀ j, Used s j → (s.dirTable j).fileType = ftDir →
      Used s' j ∧ (s'.dirTable j).fileType = ftDir ∧
        (s'.dirTable j).entryId = (s.dirTable j).entryId ∧
        (s'.dirTable j).parentId = (s.dirTable j).parentId) {p : ℕ} (hp : ReachesRoot s p) :
    ReachesRoot s' p := by
  induction hp with
  | root => exact .root
  | up hj hd he _ ih =>
    obtain ⟨hj', hd', he', hp'⟩ := h _ hj hd
    exact .up hj' hd' (he'.trans he) (hp'.symm ▸ ih)

lemma fsDirExists_reachesRoot (h : TreeInv s) {p : ℕ} (hp : fsDirExists s p = true) :
    ReachesRoot s p := by
  unfold fsDirExists at hp
  split_ifs at hp with h0
  · exact h0 ▸ .root
  · obtain ⟨j, hj, ht⟩ := firstIdx_isSome.1 hp
    simp only [Bool.and_eq_true, bne_iff_ne, beq_iff_eq] at ht
    exact .up ⟨hj, ht.1.1⟩ ht.1.2 ht.2 (h.parents j ⟨hj, ht.1.1⟩)

structure SamePlace (d d' : DirEntry) : Prop where
  isUsed : d.isUsed = d'.isUsed
  entryId : d.entryId = d'.entryId
  parentId : d.parentId = d'.parentId
  fileType : d.fileType = d'.fileType
  startCluster : d.startCluster = d'.startCluster
  fileSize : d.fileSize = d'.fileSize

/-- Entry `i` is rewritten in place, possibly under a name no other entry of the directory has. -/
structure Rewritten (s s' : Fs) (i : ℕ) (d : DirEntry) : Prop where
  geo : s'.geo = s.geo
  dirTable : s'.dirTable = update s.dirTable i d
  fat : s'.fat = s.fat
  place : SamePlace d (s.dirTable i)
  fresh : ∀ j, Used s j → j ≠ i → (s.dirTable j).parentId = d.parentId →
    (s.dirTable j).filename ≠ d.filename

namespace Rewritten

variable {i : ℕ} {d : DirEntry}

section

variable (h : Rewritten s s' i d)
include h

lemma at_eq : s'.dirTable i = d := by
  rw [h.dirTable, update_self]

lemma off (hj : j ≠ i) : s'.dirTable j = s.dirTable j := by
  rw [h.dirTable, update_of_ne hj]

lemma samePlace (j : ℕ) : SamePlace (s'.dirTable j) (s.dirTable j) := by
  by_cases hj : j = i
  · rw [hj, h.at_eq]
    exact h.place
  · rw [h.off hj]
    exact ⟨rfl, rfl, rfl, rfl, rfl, rfl⟩

lemma used (j : ℕ) : Used s' j ↔ Used s j := by
  simp only [Used, h.geo, (h.samePlace j).isUsed]

end

lemma ownsChain (ht : TableInv s) (h : Rewritten s s' i d) (j : ℕ) (hj : Used s' j) :
    OwnsChain s' j (chainOf s j) :=
  (ht.ownsChain ((h.used j).1 hj)).transport h.geo (h.samePlace j).startCluster
    fun x _ => by rw [h.fat]

lemma tableInv (ht : TableInv s) (h : Rewritten s s' i d) : TableInv s' := by
  refine build (chainOf s) (h.ownsChain ht) (fun j hj => ?_)
    (fun j k hj hk hp hn => ?_)
    (fun j k hj hk => ht.disjoint j k ((h.used j).1 hj) ((h.used k).1 hk))
  · rw [(h.samePlace j).entryId]
    exact ht.entryId j ((h.used j).1 hj)
  · rw [h.used] at hj hk
    by_cases hji : j = i <;> by_cases hki : k = i
    · rw [hji, hki]
    · subst hji
      rw [h.at_eq, h.off hki] at hp hn
      exact absurd hn.symm (h.fresh k hk hki hp.symm)
    · subst hki
      rw [h.at_eq, h.off hji] at hp hn
      exact absurd hn (h.fresh j hj hji hp)
    · rw [h.off hji, h.off hki] at hp hn
      exact ht.unique j k hj hk hp hn

lemma treeInv (ht : TreeInv s) (h : Rewritten s s' i d) : TreeInv s' where
  toTableInv := h.tableInv ht.toTableInv
  slotZero := (h.samePlace 0).isUsed.trans ht.slotZero
  flags j hj := (h.samePlace j).isUsed ▸ ht.flags j (h.geo ▸ hj)
  parents j hj := by
    rw [(h.samePlace j).parentId]
    refine mono (fun k hk hkd => ?_) (ht.parents j ((h.used j).1 hj))
    exact ⟨(h.used k).2 hk, (h.samePlace k).fileType.trans hkd, (h.samePlace k).entryId,
      (h.samePlace k).parentId⟩
  size j hj h0 := by
    rw [(h.samePlace j).startCluster] at h0
    rw [(h.ownsChain ht.toTableInv j hj).chainOf_eq, (h.samePlace j).fileSize]
    exact ht.size j ((h.used j).1 hj) h0
  noData j hj h0 := by
    rw [(h.samePlace j).startCluster] at h0
    rw [(h.samePlace j).fileSize]
    exact ht.noData j ((h.used j).1 hj) h0
  noLeak c h2 hc hf := by
    obtain ⟨j, hj, hcj⟩ := ht.noLeak c h2 (h.geo ▸ hc) (h.fat ▸ hf)
    have hj' := (h.used j).2 hj
    exact ⟨j, hj', (h.ownsChain ht.toTableInv j hj').chainOf_eq ▸ hcj⟩

end Rewritten

section Insert

/-- An unused slot `k` is filled with an entry that owns the chain `l` of free clusters. -/
structure Inserted (s s' : Fs) (k : ℕ) (d : DirEntry) (l : List ℕ) : Prop where
  pos : 0 < k
  lt : k < s.geo.maxEntries
  unused : (s.dirTable k).isUsed = 0
  geo : s'.geo = s.geo
  dirTable : s'.dirTable = update s.dirTable k d
  isUsed : d.isUsed = 1
  entryId : d.entryId = k
  fresh : ∀ j, Used s j → (s.dirTable j).parentId = d.parentId →
    (s.dirTable j).filename ≠ d.filename
  owns : OwnsChain s' k l
  free : ∀ x ∈ l, s.fat x = fatFree
  fat_off : ∀ x ∉ l, s'.fat x = s.fat x

namespace Inserted

variable {k : ℕ} {d : DirEntry} {l : List ℕ}

section

variable (h : Inserted s s' k d l)
include h

lemma at_eq : s'.dirTable k = d := by
  rw [h.dirTable, update_self]

lemma off (hj : j ≠ k) : s'.dirTable j = s.dirTable j := by
  rw [h.dirTable, update_of_ne hj]

lemma ne_of_used (hj : Used s j) : j ≠ k := fun hjk => hj.2 (hjk ▸ h.unused)

lemma used (j : ℕ) : Used s' j ↔ j = k ∨ Used s j := by
  by_cases hj : j = k
  · simp [Used, hj, h.at_eq, h.isUsed, h.geo, h.lt]
  · simp [Used, hj, h.off hj, h.geo]

end

lemma disjoint_old (ht : TableInv s) (h : Inserted s s' k d l) (hj : Used s j) :
    l.Disjoint (chainOf s j) :=
  fun x hx hxj => ht.fat_ne_free hj hxj (h.free x hx)

lemma ownsChain_old (ht : TableInv s) (h : Inserted s s' k d l) (hj : Used s j) :
    OwnsChain s' j (chainOf s j) :=
  (ht.ownsChain hj).transport h.geo (by rw [h.off (h.ne_of_used hj)]) fun x hx =>
    h.fat_off x fun hxl => h.disjoint_old ht hj hxl hx

lemma ownsChain (ht : TableInv s) (h : Inserted s s' k d l) (j : ℕ) (hj : Used s' j) :
    OwnsChain s' j (update (chainOf s) k l j) := by
  rcases (h.used j).1 hj with rfl | hj
  · rw [update_self]
    exact h.owns
  · rw [update_of_ne (h.ne_of_used hj)]
    exact h.ownsChain_old ht hj

lemma tableInv (ht : TableInv s) (h : Inserted s s' k d l) : TableInv s' := by
  refine build (update (chainOf s) k l) (h.ownsChain ht) (fun j hj => ?_)
    (fun i j hi hj hp hn => ?_) (fun i j hi hj hij => ?_)
  · rcases (h.used j).1 hj with rfl | hj
    · rw [h.at_eq, h.entryId]
    · rw [h.off (h.ne_of_used hj)]
      exact ht.entryId j hj
  · rcases (h.used i).1 hi with rfl | hi <;> rcases (h.used j).1 hj with rfl | hj
    · rfl
    · rw [h.at_eq, h.off (h.ne_of_used hj)] at hp hn
      exact absurd hn.symm (h.fresh j hj hp.symm)
    · rw [h.at_eq, h.off (h.ne_of_used hi)] at hp hn
      exact absurd hn (h.fresh i hi hp)
    · rw [h.off (h.ne_of_used hi), h.off (h.ne_of_used hj)] at hp hn
      exact ht.unique i j hi hj hp hn
  · rcases (h.used i).1 hi with rfl | hi <;> rcases (h.used j).1 hj with rfl | hj
    · exact absurd rfl hij
    · rw [update_self, update_of_ne (h.ne_of_used hj)]
      exact h.disjoint_old ht hj
    · rw [update_self, update_of_ne (h.ne_of_used hi)]
      exact (h.disjoint_old ht hi).symm
    · rw [update_of_ne (h.ne_of_used hi), update_of_ne (h.ne_of_used hj)]
      exact ht.disjoint i j hi hj hij

lemma treeInv (ht : TreeInv s) (h : Inserted s s' k d l) (hp : ReachesRoot s d.parentId)
    (hs : d.startCluster ≠ 0 → l.length = clustersFor d.fileSize)
    (hz : d.startCluster = 0 → d.fileSize = 0) : TreeInv s' := by
  have hk : ∀ {p}, ReachesRoot s p → ReachesRoot s' p := fun {p} hr => by
    refine mono (fun j hj hjd => ?_) hr
    rw [h.off (h.ne_of_used hj)]
    exact ⟨(h.used j).2 (.inr hj), hjd, rfl, rfl⟩
  refine ⟨h.tableInv ht.toTableInv, ?_, fun j hj => ?_, fun j hj => ?_, fun j hj => ?_,
    fun j hj => ?_, fun c h2 hc hf => ?_⟩
  · rw [h.off h.pos.ne]
    exact ht.slotZero
  · by_cases hjk : j = k
    · rw [hjk, h.at_eq, h.isUsed]
    · rw [h.off hjk]
      exact ht.flags j (h.geo ▸ hj)
  · rcases (h.used j).1 hj with rfl | hj
    · rw [h.at_eq]
      exact hk hp
    · rw [h.off (h.ne_of_used hj)]
      exact hk (ht.parents j hj)
  · rcases (h.used j).1 hj with rfl | hj
    · rw [h.at_eq, h.owns.chainOf_eq]
      exact hs
    · rw [h.off (h.ne_of_used hj), (h.ownsChain_old ht.toTableInv hj).chainOf_eq]
      exact ht.size j hj
  · rcases (h.used j).1 hj with rfl | hj
    · rw [h.at_eq]
      exact hz
    · rw [h.off (h.ne_of_used hj)]
      exact ht.noData j hj
  · by_cases hcl : c ∈ l
    · exact ⟨k, (h.used k).2 (.inl rfl), h.owns.chainOf_eq ▸ hcl⟩
    · obtain ⟨i, hi, hci⟩ := ht.noLeak c h2 (h.geo ▸ hc) (h.fat_off c hcl ▸ hf)
      exact ⟨i, (h.used i).2 (.inr hi), (h.ownsChain_old ht.toTableInv hi).chainOf_eq ▸ hci⟩

end Inserted

variable {e : Env} {name : Name} {content : Buf} {size parentId slot start : ℕ}

lemma Created.ownsChain (h : Created e s s' slot start name content size parentId) :
    OwnsChain s' slot (newChain s size) := by
  have ha : (s'.dirTable slot).startCluster = start := by
    rw [h.dirTable, update_self]
    rfl
  refine .inr ⟨ha ▸ h.start_ne, ha ▸ h.linked, fun x hx => ?_⟩
  rw [h.geo]
  exact ⟨(mem_newChain hx).1, (mem_newChain hx).2.1⟩

lemma Created.inserted (hf : CreateFits s name size parentId)
    (h : Created e s s' slot start name content size parentId) :
    Inserted s s' slot (newFileEntry e slot name start size parentId) (newChain s size) where
  pos := (freeSlot_some h.slot_eq).1
  lt := (freeSlot_some h.slot_eq).2.1
  unused := (freeSlot_some h.slot_eq).2.2
  geo := h.geo
  dirTable := h.dirTable
  isUsed := rfl
  entryId := rfl
  fresh j hj hp hn :=
    Bool.false_ne_true ((hf.fresh j hj.1).symm.trans (named_used.2 ⟨hj.2, hp, hn⟩))
  owns := h.ownsChain
  free _ hx := (mem_newChain hx).2.2
  fat_off := h.off

end Insert

namespace Removed

variable {i : ℕ}

lemma at_isUsed (h : Removed s s' i) : (s'.dirTable i).isUsed = 0 := by
  rw [h.dirTable, update_self]
  rfl

lemma off (h : Removed s s' i) (hj : j ≠ i) : s'.dirTable j = s.dirTable j := by
  rw [h.dirTable, update_of_ne hj]

lemma used (h : Removed s s' i) (j : ℕ) : Used s' j ↔ Used s j ∧ j ≠ i := by
  by_cases hj : j = i
  · simp [Used, hj, h.at_isUsed]
  · simp [Used, hj, h.off hj, h.geo]

lemma fat_off (ht : TableInv s) (hi : Used s i) (h : Removed s s' i) (hj : Used s j)
    (hji : j ≠ i) : ∀ x ∈ chainOf s j, s'.fat x = s.fat x := fun x hx => by
  rw [h.fat, if_neg fun hxi => ht.disjoint j i hj hi hji hx hxi]

lemma ownsChain (ht : TableInv s) (hi : Used s i) (h : Removed s s' i) (j : ℕ)
    (hj : Used s' j) : OwnsChain s' j (chainOf s j) := by
  rw [h.used] at hj
  exact (ht.ownsChain hj.1).transport h.geo (by rw [h.off hj.2]) (h.fat_off ht hi hj.1 hj.2)

lemma tableInv (ht : TableInv s) (hi : Used s i) (h : Removed s s' i) : TableInv s' := by
  refine build (chainOf s) (h.ownsChain ht hi) (fun j hj => ?_)
    (fun j k hj hk hp hn => ?_) (fun j k hj hk => ?_)
  · rw [h.used] at hj
    rw [h.off hj.2]
    exact ht.entryId j hj.1
  · rw [h.used] at hj hk
    rw [h.off hj.2, h.off hk.2] at hp hn
    exact ht.unique j k hj.1 hk.1 hp hn
  · rw [h.used] at hj hk
    exact ht.disjoint j k hj.1 hk.1

lemma treeInv (ht : TreeInv s) (hi : Used s i) (h : Removed s s' i)
    (hem : (s.dirTable i).fileType = ftDir → ∀ j, Used s j →
      (s.dirTable j).parentId ≠ (s.dirTable i).entryId) : TreeInv s' := by
  -- a path to the root never passes through the freed entry: nobody's parent is a freed directory
  have hk : ∀ {p}, ReachesRoot s p → ((s.dirTable i).fileType = ftDir →
      p ≠ (s.dirTable i).entryId) → ReachesRoot s' p := fun {p} hp => by
    induction hp with
    | root => exact fun _ => .root
    | @up p j hj hd he _ ih =>
      intro hpi
      have hji : j ≠ i := fun hji => hpi (hji ▸ hd) (hji ▸ he.symm)
      refine .up ((h.used j).2 ⟨hj, hji⟩) (h.off hji ▸ hd) (h.off hji ▸ he) ?_
      rw [h.off hji]
      exact ih fun hd => hem hd j hj
  refine ⟨h.tableInv ht.toTableInv hi, ?_, fun j hj => ?_, fun j hj => ?_, fun j hj => ?_,
    fun j hj => ?_, fun c h2 hc hf => ?_⟩
  · by_cases h0 : 0 = i
    · subst h0
      exact h.at_isUsed
    · rw [h.off h0]
      exact ht.slotZero
  · by_cases hji : j = i
    · rw [hji, h.at_isUsed]
      exact Nat.zero_le _
    · rw [h.off hji]
      exact ht.flags j (h.geo ▸ hj)
  · rw [h.used] at hj
    rw [h.off hj.2]
    exact hk (ht.parents j hj.1) fun hd => hem hd j hj.1
  · rw [(h.ownsChain ht.toTableInv hi j hj).chainOf_eq]
    rw [h.used] at hj
    rw [h.off hj.2]
    exact ht.size j hj.1
  · rw [h.used] at hj
    rw [h.off hj.2]
    exact ht.noData j hj.1
  · rw [h.fat] at hf
    split_ifs at hf with hci
    · exact absurd rfl hf
    · obtain ⟨j, hj, hcj⟩ := ht.noLeak c h2 (h.geo ▸ hc) hf
      have hj' := (h.used j).2 ⟨hj, fun hji => hci (hji ▸ hcj)⟩
      exact ⟨j, hj', (h.ownsChain ht.toTableInv hi j hj').chainOf_eq ▸ hcj⟩

end Removed

structure Swapped (s s' : Fs) (o t : ℕ) : Prop where
  geo : s'.geo = s.geo
  mounted : s'.mounted = s.mounted
  fat : s'.fat = s.fat
  disk : ∀ r, s.geo.dataStart ≤ r → s'.disk r = s.disk r
  off : ∀ j, j ≠ o → j ≠ t → s'.dirTable j = s.dirTable j
  isUsed : ∀ j, (s'.dirTable j).isUsed = (s.dirTable j).isUsed
  entryId : ∀ j, (s'.dirTable j).entryId = (s.dirTable j).entryId
  parentId : ∀ j, (s'.dirTable j).parentId = (s.dirTable j).parentId
  filename : ∀ j, (s'.dirTable j).filename = (s.dirTable j).filename
  fileType : ∀ j, (s'.dirTable j).fileType = (s.dirTable j).fileType
  ownerUid : ∀ j, (s'.dirTable j).ownerUid = (s.dirTable j).ownerUid
  ownerGid : ∀ j, (s'.dirTable j).ownerGid = (s.dirTable j).ownerGid
  mode : ∀ j, (s'.dirTable j).mode = (s.dirTable j).mode
  startCluster : ∀ j, (s'.dirTable j).startCluster = (s.dirTable (Equiv.swap o t j)).startCluster
  fileSize : ∀ j, (s'.dirTable j).fileSize = (s.dirTable (Equiv.swap o t j)).fileSize

namespace Swapped

variable {o t : ℕ}

lemma used (h : Swapped s s' o t) (j : ℕ) : Used s' j ↔ Used s j := by
  simp only [Used, h.geo, h.isUsed]

lemma used_swap (ho : Used s o) (ht : Used s t) (hj : Used s j) :
    Used s (Equiv.swap o t j) := by
  by_cases hjo : j = o
  · rwa [hjo, Equiv.swap_apply_left]
  · by_cases hjt : j = t
    · rwa [hjt, Equiv.swap_apply_right]
    · rwa [Equiv.swap_apply_of_ne_of_ne hjo hjt]

lemma ownsChain (hi : TableInv s) (ho : Used s o) (ht : Used s t) (h : Swapped s s' o t) (j : ℕ)
    (hj : Used s' j) : OwnsChain s' j (chainOf s (Equiv.swap o t j)) :=
  (hi.ownsChain (used_swap ho ht ((h.used j).1 hj))).transport h.geo (h.startCluster j)
    fun x _ => by rw [h.fat]

lemma tableInv (hi : TableInv s) (ho : Used s o) (ht : Used s t) (h : Swapped s s' o t) :
    TableInv s' := by
  refine build (fun j => chainOf s (Equiv.swap o t j)) (h.ownsChain hi ho ht)
    (fun j hj => ?_) (fun j k hj hk hp hn => ?_) (fun j k hj hk hjk => ?_)
  · rw [h.entryId]
    exact hi.entryId j ((h.used j).1 hj)
  · rw [h.parentId, h.parentId] at hp
    rw [h.filename, h.filename] at hn
    exact hi.unique j k ((h.used j).1 hj) ((h.used k).1 hk) hp hn
  · exact hi.disjoint _ _ (used_swap ho ht ((h.used j).1 hj)) (used_swap ho ht ((h.used k).1 hk))
      fun he => hjk ((Equiv.swap o t).injective he)

lemma treeInv (hi : TreeInv s) (ho : Used s o) (ht : Used s t) (h : Swapped s s' o t) :
    TreeInv s' where
  toTableInv := h.tableInv hi.toTableInv ho ht
  slotZero := (h.isUsed 0).trans hi.slotZero
  flags j hj := h.isUsed j ▸ hi.flags j (h.geo ▸ hj)
  parents j hj := by
    rw [h.parentId]
    refine mono (fun k hk hkd => ?_) (hi.parents j ((h.used j).1 hj))
    exact ⟨(h.used k).2 hk, (h.fileType k).trans hkd, h.entryId k, h.parentId k⟩
  size j hj h0 := by
    rw [h.startCluster] at h0
    rw [(h.ownsChain hi.toTableInv ho ht j hj).chainOf_eq, h.fileSize]
    exact hi.size _ (used_swap ho ht ((h.used j).1 hj)) h0
  noData j hj h0 := by
    rw [h.startCluster] at h0
    rw [h.fileSize]
    exact hi.noData _ (used_swap ho ht ((h.used j).1 hj)) h0
  noLeak c h2 hc hf := by
    obtain ⟨j, hj, hcj⟩ := hi.noLeak c h2 (h.geo ▸ hc) (h.fat ▸ hf)
    have hj' := (h.used _).2 (used_swap ho ht hj)
    refine ⟨Equiv.swap o t j, hj', ?_⟩
    rw [(h.ownsChain hi.toTableInv ho ht _ hj').chainOf_eq, Equiv.swap_apply_self]
    exact hcj

end Swapped

end EsdumanOS
