import EsdumanOS.Proofs.Directory
import EsdumanOS.Proofs.Invariant

/-!
# The tree under the directory table

A parent chain never comes back to a directory, so the bounded walks see all of it: the validator
accepts exactly the tables whose entries have such chains (`tableAccepted_exact`), and on them
`check_vfs_access` is the permission of every directory on the way (`Rooted.accessExact`).
-/

namespace EsdumanOS

open Lib List Dirs DirEntry

def plainDirEnv : DirEnv := ⟨Env.plain, none⟩

namespace Dirs

variable {t t' : Dirs} {e : DirEnv} {p i k : ℕ} {l : List ℕ}

namespace ParentChain

lemma zero (h : t.ParentChain 0 l) : l = [] := by
  cases h with
  | root => rfl
  | up h0 => exact absurd rfl h0

section

variable (h : t.ParentChain p l)
include h

lemma unique {l' : List ℕ} (h' : t.ParentChain p l') : l = l' := by
  induction h generalizing l' with
  | root => exact h'.zero.symm
  | up h0 hd _ ih =>
    cases h' with
    | root => exact absurd rfl h0
    | up _ _ h' => rw [ih h']

lemma dir (hi : i ∈ l) : i ≠ 0 ∧ t.Dir i := by
  induction h with
  | root => simp at hi
  | up h0 hd _ ih =>
    rcases mem_cons.1 hi with rfl | hi
    · exact ⟨h0, hd⟩
    · exact ih hi

lemma place : t.Place p := by
  cases h with
  | root => exact .inl rfl
  | up _ hd _ => exact .inr hd

lemma above (hi : i ∈ l) : ∃ r, t.ParentChain i r ∧ r.length ≤ l.length := by
  induction h with
  | root => simp at hi
  | @up p l h0 hd hup ih =>
    rcases mem_cons.1 hi with rfl | hi
    · exact ⟨i :: l, .up h0 hd hup, le_rfl⟩
    · obtain ⟨r, hr, hle⟩ := ih hi
      exact ⟨r, hr, hle.trans (by simp)⟩

lemma nodup : l.Nodup := by
  induction h with
  | root => exact .nil
  | @up p l h0 hd hu ih =>
    refine nodup_cons.2 ⟨fun hp => ?_, ih⟩
    -- a chain that came back would be longer than itself
    obtain ⟨r, hr, hle⟩ := hu.above hp
    rw [← (ParentChain.up h0 hd hu).unique hr] at hle
    simp at hle

lemma length_le : l.length ≤ t.maxEntries := by
  have hs : l ⊆ range t.maxEntries := fun i hi => mem_range.2 (h.dir hi).2.1.1
  simpa using (h.nodup.subperm hs).length_le

lemma congr (hk : ∀ i ∈ l, t'.Dir i ∧ (t'.table i).parentId = (t.table i).parentId) :
    t'.ParentChain p l := by
  induction h with
  | root => exact .root
  | @up p l h0 _ _ ih =>
    obtain ⟨hd, hp⟩ := hk p (by simp)
    refine .up h0 hd ?_
    rw [hp]
    exact ih fun i hi => hk i (mem_cons_of_mem _ hi)

end

end ParentChain

lemma walkParents_chain : ∀ {ho p : ℕ}, t.walkParents ho p = true →
    ∃ l, t.ParentChain p l
  | 0, p, h => by
    obtain rfl : p = 0 := by simpa [walkParents] using h
    exact ⟨[], .root⟩
  | ho + 1, p, h => by
    unfold walkParents at h
    split_ifs at h with h0 hlt hb
    · subst h0
      exact ⟨[], .root⟩
    · push Not at hb
      obtain ⟨l, hl⟩ := walkParents_chain h
      exact ⟨p :: l, .up h0 ⟨⟨by omega, hb.1⟩, hb.2.2⟩ hl⟩

lemma walkParents_of_chain (hi : ∀ i, t.Used i → (t.table i).entryId = i)
    (h : t.ParentChain p l) : ∀ {ho : ℕ}, l.length ≤ ho → t.walkParents ho p = true := by
  induction h with
  | root =>
    intro ho _
    cases ho <;> simp [walkParents]
  | @up p l h0 hd _ ih =>
    intro ho hle
    rcases ho with _ | ho
    · simp at hle
    · have hlt := hd.1.1
      rw [walkParents, if_neg h0, if_neg (by omega), if_neg]
      · exact ih (by simpa using hle)
      · push Not
        exact ⟨hd.1.2, hi p hd.1, hd.2⟩

lemma validEntry_iff (hi : ∀ i, t.Used i → (t.table i).entryId = i) :
    t.validEntry i = true ↔ t.WellPlaced i := by
  unfold validEntry
  constructor
  · intro h
    split_ifs at h with hid ht hc
    push Not at hid ht hc
    refine ⟨hid, ?_, ?_, walkParents_chain h⟩
    · by_cases hr : (t.table i).fileType = ftRegular
      · exact .inl hr
      · exact .inr (ht hr)
    · by_cases hz : (t.table i).startCluster = 0
      · exact .inl hz
      · exact .inr (hc hz)
  · rintro ⟨hid, ht, hc, l, hl⟩
    rw [if_neg (not_not.2 hid), if_neg (by tauto), if_neg (by omega)]
    exact walkParents_of_chain hi hl hl.length_le

lemma validEntry_id (h : t.validEntry i = true) : (t.table i).entryId = i := by
  unfold validEntry at h
  split_ifs at h with hi
  exact not_not.1 hi

lemma validate_all : t.validate = true ↔ ∀ i, t.Used i → t.validEntry i = true := by
  simp only [validate, all_eq_true, mem_range, Bool.or_eq_true, decide_eq_true_eq, Used]
  constructor
  · rintro h i ⟨hi, hu⟩
    exact (h i hi).resolve_left hu
  · intro h i hi
    by_cases hu : (t.table i).isUsed = 0
    · exact .inl hu
    · exact .inr (h i ⟨hi, hu⟩)

lemma validate_wellPlaced : t.validate = true ↔ ∀ i, t.Used i → t.WellPlaced i := by
  rw [validate_all]
  constructor
  · intro h i hi
    exact (validEntry_iff fun j hj => validEntry_id (h j hj)).1 (h i hi)
  · intro h i hi
    exact (validEntry_iff fun j hj => (h j hj).entryId).2 (h i hi)

/-- `fs_validate_directory_table` accepts the tables whose used slots are all well placed, and no
others. -/
theorem tableAccepted_exact (sb : Superblock) (p : TableBlocks sb) (mem : ℕ → UInt8)
    (mounted : Bool) : tableAccepted sb p mem = true ↔
      ∀ i, (ofMemory sb p mem mounted).Used i → (ofMemory sb p mem mounted).WellPlaced i := by
  rw [@tableAccepted_eq sb p mem mounted]
  exact validate_wellPlaced

/-- Every used entry has a parent chain that ends at the root. -/
structure Rooted (t : Dirs) : Prop where
  ids : ∀ i, t.Used i → (t.table i).entryId = i
  chains : ∀ i, t.Used i → ∃ l, t.ParentChain (t.table i).parentId l

lemma rooted_of_validate (h : t.validate = true) : t.Rooted :=
  have ha := validate_wellPlaced.1 h
  ⟨fun i hi => (ha i hi).entryId, fun i hi => (ha i hi).chain⟩

lemma Rooted.slotOf (h : t.Rooted) (hi : t.Used i) : t.slotOf i = some i := by
  refine firstIdx_of_unique hi.1 ?_ fun j hj hp => ?_
  · simp [hi.2, h.ids i hi]
  · simp only [Bool.and_eq_true, bne_iff_ne, ne_eq, beq_iff_eq] at hp
    rw [← h.ids j ⟨hj, hp.1⟩, hp.2]

lemma Rooted.place (h : t.Rooted) (hi : t.Used i) : t.Place (t.table i).parentId := by
  obtain ⟨l, hl⟩ := h.chains i hi
  exact hl.place

lemma Rooted.sound (h : t.Rooted) : t.Sound := ⟨h.ids, fun i hi h1 => h.place ⟨hi, by omega⟩⟩

lemma Rooted.rewrite (h : t.Rooted) {d : DirEntry} (hs : SamePlace (t.table k) d) :
    (t.set k d).Rooted := by
  have hu := fun j => (set_place hs j).2
  refine ⟨fun i hi => ?_, fun i hi => ?_⟩
  · rw [(set_place hs i).1.id]
    exact h.ids i ((hu i).1 hi)
  · obtain ⟨l, hl⟩ := h.chains i ((hu i).1 hi)
    rw [(set_place hs i).1.parent]
    refine ⟨l, hl.congr fun j hj => ⟨⟨(hu j).2 (hl.dir hj).2.1, ?_⟩, (set_place hs j).1.parent⟩⟩
    rw [(set_place hs j).1.type]
    exact (hl.dir hj).2.2

lemma ParentChain.set (h : t.ParentChain p l) (hk : k ∉ l) (d : DirEntry) :
    (t.set k d).ParentChain p l := by
  refine h.congr fun j hj => ?_
  have hjk : j ≠ k := by
    rintro rfl
    exact hk hj
  have hd := (h.dir hj).2
  exact ⟨⟨(set_used hjk).2 hd.1, by simpa [Dirs.set, hjk] using hd.2⟩, by simp [Dirs.set, hjk]⟩

lemma ParentChain.notMem_free (h : t.ParentChain p l) (hk : (t.table k).isUsed = 0) : k ∉ l :=
  fun hkl => (h.dir hkl).2.1.2 hk

lemma Rooted.insert (h : t.Rooted) {d : DirEntry} (hk : t.freeSlot = some k)
    (hid : d.entryId = k) (hp : t.Place d.parentId) : (t.set k d).Rooted := by
  obtain ⟨-, hf⟩ := freeSlot_some hk
  have hc : ∀ q, t.Place q → ∃ l, (t.set k d).ParentChain q l := by
    rintro q (rfl | hd)
    · exact ⟨[], .root⟩
    · by_cases h0 : q = 0
      · subst h0
        exact ⟨[], .root⟩
      · obtain ⟨l, hl⟩ := h.chains q hd.1
        have hu := ParentChain.up h0 hd hl
        exact ⟨_, hu.set (hu.notMem_free hf) d⟩
  refine ⟨fun i hi => ?_, fun i hi => ?_⟩
  · by_cases hik : i = k
    · subst hik
      simpa [set] using hid
    · simpa [set, hik] using h.ids i ((set_used hik).1 hi)
  · by_cases hik : i = k
    · subst hik
      simpa [set] using hc _ hp
    · obtain ⟨l, hl⟩ := h.chains i ((set_used hik).1 hi)
      refine ⟨l, ?_⟩
      simpa [set, hik] using hl.set (hl.notMem_free hf) d

/-- A directory on a chain is where the chain starts, or the parent of one that is on it. -/
lemma ParentChain.child (h : t.ParentChain p l) (hk : k ∈ l) :
    k = p ∨ ∃ j ∈ l, (t.table j).parentId = k := by
  induction h with
  | root => simp at hk
  | @up p l h0 hd hup ih =>
    rcases mem_cons.1 hk with rfl | hk
    · exact .inl rfl
    · right
      rcases ih hk with rfl | ⟨j, hj, hjk⟩
      · exact ⟨p, by simp, rfl⟩
      · exact ⟨j, mem_cons_of_mem _ hj, hjk⟩

/-- A slot without children is on no chain. -/
lemma Rooted.remove (h : t.Rooted) (hc : k ≠ 0 → ∀ j, t.Used j → (t.table j).parentId ≠ k) :
    (t.set k (t.table k).freed).Rooted := by
  have hne : ∀ i, (t.set k (t.table k).freed).Used i → i ≠ k := by
    rintro i hi rfl
    simp [Used, set, freed] at hi
  refine ⟨fun i hi => ?_, fun i hi => ?_⟩
  · have hik := hne i hi
    simpa [set, hik] using h.ids i ((set_used hik).1 hi)
  · have hik := hne i hi
    have hu := (set_used hik).1 hi
    obtain ⟨l, hl⟩ := h.chains i hu
    have hkl : k ∉ l := by
      intro hk
      have hk0 := (hl.dir hk).1
      rcases hl.child hk with heq | ⟨j, hj, hjk⟩
      · exact hc hk0 i hu heq.symm
      · exact hc hk0 j (hl.dir hj).2.1 hjk
    refine ⟨l, ?_⟩
    simpa [set, hik] using hl.set hkl (t.table k).freed

section Operations

variable {name : Name} {parentId : ℕ}

section

variable (h : t.Rooted)
include h

lemma Rooted.place_of_dirExists (hp : t.dirExists parentId = true) : t.Place parentId :=
  h.sound.place_of_dirExists hp

lemma delete_rooted (hs : ∀ i ≠ 0, t.deletes e name parentId = some i →
    ∀ j, t.Used j → (t.table j).parentId = i → (t.table j).isUsed = 1) :
    (t.delete e name parentId).2.Rooted := by
  rcases delete_cases t e name parentId with ⟨heq, -⟩ | ⟨k, hk, hlt, hn, hc, heq⟩
  · rw [heq]
    exact h
  · rw [heq]
    refine h.remove fun hk0 j hj hjk => ?_
    have hu : t.Used k := by
      refine ⟨hlt, ?_⟩
      simp only [named1, Bool.and_eq_true, beq_iff_eq] at hn
      omega
    -- a child makes the slot a directory with an entry in it
    rcases h.place hj with h0 | hd
    · exact hk0 (hjk.symm.trans h0)
    · rw [hjk] at hd
      refine hc ⟨hd.2, firstIdx_isSome.2 ⟨j, hj.1, ?_⟩⟩
      simp [hs k hk0 hk j hj hjk, h.ids k hu, hjk]

lemma Grows.rooted (hg : Grows t t') : t'.Rooted := by
  induction hg with
  | refl => exact h
  | insert _ hk hid hp ih => exact ih.insert hk hid (ih.place_of_dirExists hp)
  | rewrite _ hs ih => exact ih.rewrite hs

/-- Nothing lies under a directory whose slot was free before. -/
lemma Creates.childless {t'' : Dirs} (hc : Creates t t' name parentId k)
    (hsame : t'.SameNames t'') (hk : k ≠ 0) {j : ℕ} (hj : t''.Used j) :
    (t''.table j).parentId ≠ k := by
  obtain ⟨d, hi, hp, rfl⟩ := hc.eq
  obtain ⟨hm, hco⟩ := hsame
  obtain ⟨hu, hpa, -⟩ := hco j
  obtain ⟨-, hf⟩ := freeSlot_some hc.free
  have hpl : t.Place (t''.table j).parentId := by
    rw [hpa]
    by_cases hjk : j = k
    · subst hjk
      simp only [set, Function.update_self, hp]
      exact h.place_of_dirExists hc.parent
    · simp only [set, Function.update_of_ne hjk]
      refine h.place ⟨?_, ?_⟩
      · have := hj.1
        simp only [hm] at this
        exact this
      · have := hj.2
        simpa [hu, set, hjk] using this
  rintro hjk
  rw [hjk] at hpl
  rcases hpl with h0 | hd
  · exact hk h0
  · exact hd.1.2 hf

lemma atomicUpdate_rooted (content : Content) (hs : t.Spares e (.update name content parentId)) :
    (t.atomicUpdate e name parentId).2.Rooted := by
  unfold atomicUpdate
  split_ifs with hm hl hex
  · exact h
  · exact h
  · exact createFile_grows.rooted h
  · have hde : (t.delete e (tmpName name) parentId).2.Rooted := by
      refine delete_rooted h fun i hi hd => ?_
      exact hs i hi ((empties_update content hex).trans hd)
    set t1 := (t.delete e (tmpName name) parentId).2
    rcases createFile_cases t1 e (tmpName name) parentId with ⟨hne, heq⟩ | ⟨hok, k, hc⟩
    · rw [if_pos hne, heq]
      exact hde
    · rw [if_neg (not_not.2 hok)]
      set t2 := (t1.createFile e (tmpName name) parentId).2
      have hn : t2.Rooted := hc.grows.rooted hde
      -- the last step deletes the file that was just created
      have hla : ∀ {t3 : Dirs}, t3.Rooted → t2.SameNames t3 →
          (t3.delete e (tmpName name) parentId).2.Rooted := by
        intro t3 h3 hsame
        refine delete_rooted h3 fun i hi0 hd j hj hji => ?_
        obtain rfl := hc.deletes hsame hd
        exact absurd hji (hc.childless hde hsame hi0 hj)
      unfold finishUpdate
      split
      · rename_i orig tmp _ _
        exact hla ((swap_grows orig tmp).rooted hn) (swap_sameNames orig tmp)
      · exact hla hn ⟨rfl, fun _ => ⟨rfl, rfl, rfl⟩⟩

lemma run_rooted (op : FsOp) (hs : t.Spares e op) : (t.run e op).2.Rooted := by
  cases op with
  | createRaw name content parentId => exact createFileRaw_grows.rooted h
  | create name content parentId => exact createFile_grows.rooted h
  | mkdir name parentId => exact mkdir_grows.rooted h
  | delete name parentId => exact delete_rooted h hs
  | rename oldName newName parentId => exact (rename_grows oldName newName).rooted h
  | update name content parentId => exact atomicUpdate_rooted h content hs
  | chmod entryId mode =>
    refine Grows.rooted h (changeEntry_grows ?_ entryId)
    exact fun d => ⟨rfl, rfl, rfl, rfl⟩
  | chown entryId uid gid =>
    refine Grows.rooted h (changeEntry_grows ?_ entryId)
    exact fun d => ⟨rfl, rfl, rfl, rfl⟩

end

end Operations

section Access

variable {uid gid : ℕ}

/-- With as many hops as the chain is long, the walk asks every directory on it. -/
lemma searchable_iff (h : t.Rooted) {l : List ℕ} (hl : t.ParentChain p l) :
    ∀ {ho : ℕ}, l.length ≤ ho → (t.searchable uid gid ho p = true ↔ t.Granted uid gid p) := by
  induction hl with
  | root =>
    intro ho _
    cases ho <;> simp [searchable, Granted.root]
  | @up p l h0 hd hup ih =>
    intro ho hle
    rcases ho with _ | ho
    · simp at hle
    · rw [searchable, if_neg h0]
      simp only [h.slotOf hd.1, Bool.and_eq_true]
      rw [ih (by simpa using hle)]
      constructor
      · rintro ⟨hx, hg⟩
        exact .up h0 hd hx hg
      · rintro (_ | ⟨-, -, hx, hg⟩)
        · exact absurd rfl h0
        · exact ⟨hx, hg⟩

lemma Rooted.accessExact (h : t.Rooted) : t.AccessExact := by
  intro uid gid needsWrite hu
  refine ⟨?_, fun id hi hd => ?_⟩
  · simp only [checkVfsAccess, hu, if_false, if_true]
    rfl
  · obtain ⟨l, hl⟩ := h.chains id hd.1
    simp only [checkVfsAccess, hu, hi, if_false, h.slotOf hd.1, Bool.and_eq_true]
    rw [searchable_iff h hl hl.length_le]
    rfl

/-- From an accepted table on, the access check is exact while no call empties a slot with a child
it missed. -/
theorem runAll_accessExact (t : Dirs) (calls : List (DirEnv × FsOp)) (h : t.validate = true)
    (hs : StepsMeet step (fun t call => t.Spares call.1 call.2) t calls) :
    (t.runAll calls).AccessExact := by
  have hstep : ∀ (t : Dirs) (call : DirEnv × FsOp), t.Rooted → t.Spares call.1 call.2 →
      (t.step call).Rooted := fun _ call hr hok => run_rooted hr call.2 hok
  exact (foldl_induction hstep calls (rooted_of_validate h) hs).accessExact

def ofEntries (entries : List DirEntry) : Dirs :=
  ⟨true, 8, 100, fun i => if i = 0 then .zero else entries.getD (i - 1) .zero⟩

def entryOf (name : Name) (id parentId mode fileType isUsed : ℕ) : DirEntry :=
  ⟨name, 0, 0, 0, 0, 0, 0, id, parentId, mode, fileType, isUsed⟩

def oddFlag : Dirs :=
  ofEntries [entryOf ['g'] 1 0 0o700 ftDir 1, entryOf ['p'] 2 1 0o755 ftDir 1,
    entryOf ['c'] 3 2 0o777 ftDir 2]

/-- The directory `p` is deleted from above `c`, which then is open to everybody. -/
theorem runAll_accessExact_deleted : oddFlag.validate = true ∧
    oddFlag.checkVfsAccess 1000 1000 3 false = false ∧
    (oddFlag.runAll [(plainDirEnv, .delete ['p'] 1)]).checkVfsAccess 1000 1000 3 false = true ∧
    ¬ (oddFlag.runAll [(plainDirEnv, .delete ['p'] 1)]).AccessExact := by
  refine ⟨by decide +kernel, by decide +kernel, by decide +kernel, fun h => ?_⟩
  have hdir : (oddFlag.runAll [(plainDirEnv, .delete ['p'] 1)]).Dir 3 := by
    refine ⟨⟨by decide, by decide +kernel⟩, by decide +kernel⟩
  obtain ⟨-, hg⟩ := ((h 1000 1000 false (by decide)).2 3 (by decide) hdir).1
    (by decide +kernel)
  cases hg with
  | up _ hd _ _ => exact hd.1.2 (by decide +kernel)

/-- A directory is made, the one above it closed, and it is deleted again. -/
theorem runAll_accessExact_sample : ((ofEntries [entryOf ['g'] 1 0 0o711 ftDir 1,
      entryOf ['p'] 2 1 0o755 ftDir 1]).runAll [(plainDirEnv, .mkdir ['c'] 2),
        (plainDirEnv, .chmod 2 0o700), (plainDirEnv, .delete ['c'] 2)]).AccessExact := by
  refine runAll_accessExact _ _ (by decide +kernel) ⟨?_, ?_, ?_, trivial⟩
  · rintro i - h
    cases h
  · rintro i - h
    cases h
  · intro i _ _ j hj _
    have hflags : ∀ j < 8, ((((ofEntries [entryOf ['g'] 1 0 0o711 ftDir 1,
        entryOf ['p'] 2 1 0o755 ftDir 1]).step (plainDirEnv, .mkdir ['c'] 2)).step
          (plainDirEnv, .chmod 2 0o700)).table j).isUsed ≤ 1 := by decide +kernel
    have := hflags j hj.1
    have := hj.2
    omega

end Access

section Lookups

variable {name : Name} {parentId : ℕ}

lemma named1_iff (d : DirEntry) :
    d.named1 parentId name = true ↔ d.named parentId name = true ∧ d.isUsed = 1 := by
  simp only [named1, named, Bool.and_eq_true, bne_iff_ne, beq_iff_eq]
  constructor
  · rintro ⟨⟨hu, hp⟩, hn⟩
    exact ⟨⟨⟨by omega, hp⟩, hn⟩, hu⟩
  · rintro ⟨⟨⟨-, hp⟩, hn⟩, hu⟩
    exact ⟨⟨hu, hp⟩, hn⟩

lemma LookupsAgree.oneEntry (h : t.LookupsAgree name parentId) : t.OneEntry name parentId := by
  obtain ⟨ho, -, -, hl⟩ := h
  rcases hf : t.entryIdx name parentId with _ | k
  · have hno := firstIdx_eq_none.1 hf
    exact ⟨fun i hi j _ hn _ => absurd hn (by simpa using hno i hi),
      fun i hi hn => absurd hn (by simpa using hno i hi)⟩
  · -- the first and the last match are slot `k`
    obtain ⟨-, -, hm⟩ := firstIdx_eq_some.1 hf
    have hma := lastIdx_max (hl.trans hf)
    have hk : ∀ i < t.maxEntries, (t.table i).named parentId name = true → i = k := by
      intro i hi hn
      have hle := hma i hi hn
      have hge : ¬ i < k := fun hlt => absurd hn (by simpa using hm i hlt)
      omega
    refine ⟨fun i hi j hj hn hn' => (hk i hi hn).trans (hk j hj hn').symm, fun i hi hn => ?_⟩
    obtain ⟨-, hon⟩ := find_some (ho.trans hf)
    rw [hk i hi hn]
    exact ((named1_iff _).1 hon).2

lemma OneEntry.agree (h : t.OneEntry name parentId) : t.LookupsAgree name parentId := by
  have hsame : ∀ i < t.maxEntries, (t.table i).named1 parentId name =
      (t.table i).named parentId name := by
    intro i hi
    rw [Bool.eq_iff_iff, named1_iff]
    exact ⟨And.left, fun hn => ⟨hn, h.flag i hi hn⟩⟩
  have hf : (t.find fun d => d.named1 parentId name) = t.entryIdx name parentId :=
    firstIdx_congr hsame
  refine ⟨hf, hf, hf, ?_⟩
  rcases hfi : t.entryIdx name parentId with _ | k
  · exact lastIdx_eq_none.2 (firstIdx_eq_none.1 hfi)
  · obtain ⟨hn, hk, -⟩ := firstIdx_eq_some.1 hfi
    exact lastIdx_of_unique hk hn fun j hj hnj => h.single j hj k hk hnj hn

section Scans

variable {oldName newName : Name}

lemma fsOpen_openSlot (s : Fs) (hm : s.mounted = true) :
    (fsOpen s name parentId).2.map VfsFile.inodeIdx = s.dirs.openSlot name parentId := by
  unfold fsOpen openSlot
  rw [dirs_find, hm, if_neg (by simp)]
  rcases firstIdx (fun i => (s.dirTable i).named1 parentId name) s.geo.maxEntries with _ | i <;> rfl

lemma delete_deleteSlot (h : (t.delete e name parentId).1 = .ok) :
    ∃ k, t.deleteSlot name parentId = some k ∧
      (t.delete e name parentId).2 = t.set k (t.table k).freed := by
  unfold delete at h ⊢
  split_ifs at h ⊢ with hm hl
  rcases hk : t.find fun d => d.named1 parentId name with _ | k
  · simp [hk] at h
  · simp only [hk] at h ⊢
    split_ifs at h ⊢ with hc
    exact ⟨k, hk, rfl⟩

lemma rename_renameSlot (h : (t.rename e oldName newName parentId).1 = .ok) :
    ∃ k, t.renameSlot oldName parentId = some k ∧ (t.rename e oldName newName parentId).2 =
      t.set k { t.table k with filename := newName, ctime := e.now } := by
  unfold rename at h ⊢
  split_ifs at h ⊢ with hm hn hl hx
  rcases hk : t.find fun d => d.named1 parentId oldName with _ | k
  · simp [hk] at h
  · exact ⟨k, hk, rfl⟩

lemma createFileRaw_existingSlot (h : (t.createFileRaw e name parentId).1 = .ok) :
    t.existingSlot name parentId = Option.none := by
  unfold createFileRaw at h
  split_ifs at h with hm hn hd hx
  exact Option.not_isSome_iff_eq_none.1 hx

end Scans

def twins : Dirs :=
  ofEntries [entryOf ['a'] 1 0 0o644 ftRegular 1, entryOf ['a'] 2 0 0o600 ftRegular 1]

/-- The five scans agree on a name exactly if at most one used slot has it, with flag 1. -/
theorem lookupsAgree_iff (t : Dirs) (name : Name) (parentId : ℕ) :
    t.LookupsAgree name parentId ↔ t.OneEntry name parentId :=
  ⟨LookupsAgree.oneEntry, OneEntry.agree⟩

/-- With a flag of 2 and two entries of one name, `fs_get_entry_idx` finds an entry that `fs_open`
and `fs_delete` do not see, and `fs_delete` takes another. -/
theorem lookups_disagree : oddFlag.validate = true ∧ oddFlag.entryIdx ['c'] 2 = some 3 ∧
    oddFlag.openSlot ['c'] 2 = Option.none ∧ ¬ oddFlag.LookupsAgree ['c'] 2 ∧
    twins.validate = true ∧ twins.deleteSlot ['a'] 0 = some 1 ∧
    twins.existingSlot ['a'] 0 = some 2 ∧ ¬ twins.LookupsAgree ['a'] 0 := by
  refine ⟨by decide +kernel, by decide +kernel, by decide +kernel, fun h => ?_, by decide +kernel,
    by decide +kernel, by decide +kernel, fun h => ?_⟩
  · exact absurd (h.oneEntry.flag 3 (by decide) (by decide +kernel)) (by decide +kernel)
  · exact absurd (h.oneEntry.single 1 (by decide) 2 (by decide) (by decide +kernel)
      (by decide +kernel)) (by decide)

end Lookups

end Dirs

lemma ReachesRoot.chain {s : Fs} {p : ℕ} (h : TableInv s) (hp : ReachesRoot s p) :
    ∃ l, s.dirs.ParentChain p l := by
  induction hp with
  | root => exact ⟨[], .root⟩
  | @up p j hu hd hid _ ih =>
    obtain ⟨l, hl⟩ := ih
    obtain rfl : j = p := (h.entryId j hu).symm.trans hid
    rcases eq_or_ne j 0 with rfl | h0
    · exact ⟨[], .root⟩
    · exact ⟨j :: l, .up h0 ⟨hu, hd⟩ hl⟩

/-- After any calls on a fresh volume the access check is exact and all lookups agree. -/
theorem fsRun_lookups (geo : Geometry) (disk : ℕ → Buf) (calls : List (Env × FsOp)) :
    (fsRun (freshFs geo true disk) calls).dirs.AccessExact ∧
      ∀ name parentId, (fsRun (freshFs geo true disk) calls).dirs.LookupsAgree name parentId := by
  have hw := fsRun_wellFormed_of (freshFs_wellFormed geo true disk) calls
  refine ⟨Rooted.accessExact ⟨hw.entryId, fun i hi => ?_⟩, fun name parentId =>
    OneEntry.agree ⟨fun i hi j hj hn hn' => ?_, fun i hi hn => ?_⟩⟩
  · exact (hw.parents i hi).chain hw.toTableInv
  · obtain ⟨hu, hp, hf⟩ := named_used.1 hn
    obtain ⟨hu', hp', hf'⟩ := named_used.1 hn'
    exact hw.unique i j ⟨hi, hu⟩ ⟨hj, hu'⟩ (hp.trans hp'.symm) (hf.trans hf'.symm)
  · exact le_antisymm (hw.flags i hi) (Nat.pos_of_ne_zero (named_used.1 hn).1)

end EsdumanOS
