import EsdumanOS.DirTree
import EsdumanOS.Proofs.Create

/-!
# What operations do to the directory table

In a table that passes the validator the entry ids are the slots and every used entry lies in a
directory (`Sound`). The operations keep that, and every used slot but the one they empty
(`Dirs.run_evolves`); those of the volume refine them (`FsOp.run_dirs`).
-/

namespace EsdumanOS

open Lib List Function DirEntry

variable {p : DirEntry → Bool} {d : DirEntry}

namespace Dirs

variable {t t' t'' : Dirs} {e : DirEnv} {name : Name} {parentId i k : ℕ} {gone : ℕ → Prop}

lemma find_some (h : t.find p = some i) :
    i < t.maxEntries ∧ p (t.table i) = true := by
  obtain ⟨hp, hi, -⟩ := firstIdx_eq_some.1 h
  exact ⟨hi, hp⟩

lemma find_none (h : t.find p = Option.none) {j : ℕ}
    (hj : j < t.maxEntries) : p (t.table j) = false :=
  firstIdx_eq_none.1 h j hj

lemma freeSlot_some (h : t.freeSlot = some k) :
    k < t.maxEntries ∧ (t.table k).isUsed = 0 := by
  obtain ⟨hp, hk, -⟩ := firstIdx_eq_some.1 h
  simp only [Bool.and_eq_true, decide_eq_true_eq, beq_iff_eq] at hp
  exact ⟨hk, hp.2⟩

lemma freeSlot_pos (h : t.freeSlot = some k) : 0 < k := by
  obtain ⟨hp, -, -⟩ := firstIdx_eq_some.1 h
  simp only [Bool.and_eq_true, decide_eq_true_eq] at hp
  exact hp.1

def Place (t : Dirs) (id : ℕ) : Prop := id = 0 ∨ t.Dir id

/-- What the validator checks, as far as the tree goes. -/
structure Sound (t : Dirs) : Prop where
  ids : ∀ i, t.Used i → (t.table i).entryId = i
  parents : ∀ i < t.maxEntries, (t.table i).isUsed = 1 → t.Place (t.table i).parentId

lemma Sound.place_of_dirExists (h : t.Sound) (hp : t.dirExists parentId = true) :
    t.Place parentId := by
  unfold dirExists at hp
  split_ifs at hp with h0
  · exact .inl h0
  · obtain ⟨i, hi⟩ := Option.isSome_iff_exists.1 hp
    obtain ⟨hlt, ht⟩ := find_some hi
    simp only [Bool.and_eq_true, bne_iff_ne, ne_eq, beq_iff_eq] at ht
    obtain ⟨⟨hu, hd⟩, hid⟩ := ht
    have := h.ids i ⟨hlt, hu⟩
    rw [← hid, this]
    exact .inr ⟨⟨hlt, hu⟩, hd⟩

/-- From `t` to `t'` the table stays sound and keeps its slots and their types, those in `gone`
apart. -/
structure Evolves (t t' : Dirs) (gone : ℕ → Prop) : Prop where
  sound : t'.Sound
  mounted : t'.mounted = t.mounted
  maxEntries : t'.maxEntries = t.maxEntries
  keeps : ∀ i, t.Used i → ¬ gone i → t'.Used i ∧ (t'.table i).fileType = (t.table i).fileType

lemma Evolves.refl (h : t.Sound) : Evolves t t gone :=
  ⟨h, rfl, rfl, fun _ hi _ => ⟨hi, rfl⟩⟩

lemma Evolves.trans {gone' : ℕ → Prop} (h : Evolves t t' gone) (h' : Evolves t' t'' gone')
    (hgo : ∀ i, t.Used i → ¬ gone i → ¬ gone' i) : Evolves t t'' gone := by
  refine ⟨h'.sound, h'.mounted.trans h.mounted, h'.maxEntries.trans h.maxEntries, ?_⟩
  intro i hi hg
  obtain ⟨hu, ht⟩ := h.keeps i hi hg
  obtain ⟨hu', ht'⟩ := h'.keeps i hu (hgo i hi hg)
  exact ⟨hu', ht'.trans ht⟩

lemma Evolves.dir (h : Evolves t t' gone) (hi : t.Dir i) (hg : ¬ gone i) :
    t'.Dir i := by
  obtain ⟨hu, ht⟩ := h.keeps i hi.1 hg
  exact ⟨hu, ht.trans hi.2⟩

lemma set_used {j : ℕ} (hj : j ≠ k) : (t.set k d).Used j ↔ t.Used j := by
  simp [Used, set, hj]

/-- The two entries are in the same place of the tree, whatever else they say. -/
structure SamePlace (d d' : DirEntry) : Prop where
  used : d'.isUsed = d.isUsed
  type : d'.fileType = d.fileType
  id : d'.entryId = d.entryId
  parent : d'.parentId = d.parentId

lemma set_place (hs : SamePlace (t.table k) d) (j : ℕ) :
    SamePlace (t.table j) ((t.set k d).table j) ∧ ((t.set k d).Used j ↔ t.Used j) := by
  have hj : SamePlace (t.table j) ((t.set k d).table j) := by
    by_cases hj : j = k
    · subst hj
      simpa [set] using hs
    · constructor <;> simp [set, hj]
  refine ⟨hj, ?_⟩
  rw [Used, Used, hj.used]
  rfl

lemma evolves_rewrite (h : t.Sound) (hs : SamePlace (t.table k) d) :
    Evolves t (t.set k d) gone := by
  have hus := fun j => (set_place hs j).2
  refine ⟨⟨fun i hi => ?_, fun i hi h1 => ?_⟩, rfl, rfl,
    fun i hi _ => ⟨(hus i).2 hi, (set_place hs i).1.type⟩⟩
  · rw [(set_place hs i).1.id]
    exact h.ids i ((hus i).1 hi)
  · rw [(set_place hs i).1.used] at h1
    rw [(set_place hs i).1.parent]
    rcases h.parents i hi h1 with h0 | ⟨hu, hd⟩
    · exact .inl h0
    · exact .inr ⟨(hus _).2 hu, (set_place hs _).1.type.trans hd⟩

/-- A new entry with its own id, in a place that exists, leaves the rest where it is. -/
lemma evolves_insert (h : t.Sound) (hk : t.freeSlot = some k) (hid : d.entryId = k)
    (hp : t.Place d.parentId) : Evolves t (t.set k d) gone := by
  obtain ⟨hlt, hf⟩ := freeSlot_some hk
  have hne : ∀ j, t.Used j → j ≠ k := by
    rintro j hj rfl
    exact hj.2 hf
  have hke : ∀ j, t.Used j → (t.set k d).Used j ∧
      ((t.set k d).table j).fileType = (t.table j).fileType := fun j hj =>
    ⟨(set_used (hne j hj)).2 hj, by simp [set, hne j hj]⟩
  have hpl : ∀ id, t.Place id → (t.set k d).Place id := by
    rintro id (h0 | ⟨hu, hd⟩)
    · exact .inl h0
    · exact .inr ⟨(hke id hu).1, (hke id hu).2.trans hd⟩
  refine ⟨⟨fun i hi => ?_, fun i hi h1 => ?_⟩, rfl, rfl, fun i hi _ => hke i hi⟩
  · by_cases hik : i = k
    · subst hik
      simpa [set] using hid
    · simpa [set, hik] using h.ids i ((set_used hik).1 hi)
  · by_cases hik : i = k
    · subst hik
      simpa [set] using hpl _ hp
    · simp only [set, update_of_ne hik] at h1 ⊢
      exact hpl _ (h.parents i hi h1)

/-- Only a directory without children is removed, so no entry loses its parent. -/
lemma evolves_remove (h : t.Sound)
    (hc : ¬ ((t.table k).fileType = ftDir ∧ t.hasChild (t.table k).entryId = true)) :
    Evolves t (t.set k (t.table k).freed) (· = k) := by
  have hk : ∀ j, t.Used j → j ≠ k → (t.set k (t.table k).freed).Used j ∧
      ((t.set k (t.table k).freed).table j).fileType = (t.table j).fileType := fun j hj hjk =>
    ⟨(set_used hjk).2 hj, by simp [set, hjk]⟩
  refine ⟨⟨fun i hi => ?_, fun i hi h1 => ?_⟩, rfl, rfl, fun i hi hik => hk i hi hik⟩
  · by_cases hik : i = k
    · subst hik
      simp [Used, set, freed] at hi
    · simpa [set, hik] using h.ids i ((set_used hik).1 hi)
  · by_cases hik : i = k
    · subst hik
      simp [set, freed] at h1
    · simp only [set, update_of_ne hik] at h1 ⊢
      rcases h.parents i hi h1 with h0 | hdir
      · exact .inl h0
      · refine .inr ⟨(hk _ hdir.1 ?_).1, (hk _ hdir.1 ?_).2.trans hdir.2⟩ <;>
        · intro hp
          have hid := h.ids _ hdir.1
          rw [hp] at hdir hid
          refine hc ⟨hdir.2, firstIdx_isSome.2 ⟨i, hi, ?_⟩⟩
          simp [h1, hid, hp]

/-- What the calls do that empty no slot: entries are added in free slots or rewritten in place. -/
inductive Grows (t : Dirs) : Dirs → Prop
  | refl : Grows t t
  | insert {t' : Dirs} {k : ℕ} {d : DirEntry} : Grows t t' → t'.freeSlot = some k →
      d.entryId = k → t'.dirExists d.parentId = true → Grows t (t'.set k d)
  | rewrite {t' : Dirs} {k : ℕ} {d : DirEntry} : Grows t t' → SamePlace (t'.table k) d →
      Grows t (t'.set k d)

lemma Grows.evolves (hg : Grows t t') (h : t.Sound) : Evolves t t' gone := by
  induction hg with
  | refl => exact .refl h
  | insert _ hk hid hp ih =>
    have hs := ih.sound
    exact ih.trans (evolves_insert hs hk hid (hs.place_of_dirExists hp)) fun _ _ => id
  | rewrite _ hp ih => exact ih.trans (evolves_rewrite ih.sound hp) fun _ _ => id

lemma delete_cases (t : Dirs) (e : DirEnv) (name : Name) (parentId : ℕ) :
    ((t.delete e name parentId).2 = t ∧ t.deletes e name parentId = Option.none) ∨
    ∃ k, t.deletes e name parentId = some k ∧ k < t.maxEntries ∧
      (t.table k).named1 parentId name = true ∧
      ¬ ((t.table k).fileType = ftDir ∧ t.hasChild (t.table k).entryId = true) ∧
      (t.delete e name parentId).2 = t.set k (t.table k).freed := by
  unfold delete deletes
  by_cases hm : (!t.mounted) = true
  · exact .inl ⟨by rw [if_pos hm], if_pos (.inl hm)⟩
  by_cases hl : .immutable ≤ e.secLevel
  · exact .inl ⟨by rw [if_neg hm, if_pos hl], if_pos (.inr hl)⟩
  · rw [if_neg hm, if_neg hl, if_neg (not_or.2 ⟨hm, hl⟩)]
    rcases hf : t.find fun d => d.named1 parentId name with _ | k
    · exact .inl ⟨rfl, rfl⟩
    · obtain ⟨hk, hn⟩ := find_some hf
      dsimp only
      split_ifs with hc
      · exact .inl ⟨rfl, by simp [Option.filter, hc.1, hc.2]⟩
      · refine .inr ⟨k, ?_, hk, hn, hc, rfl⟩
        rw [Option.filter, if_pos]
        rw [Bool.not_eq_true', ← Bool.not_eq_true, Bool.and_eq_true, decide_eq_true_eq]
        exact hc

lemma delete_evolves (h : t.Sound) :
    Evolves t (t.delete e name parentId).2 fun i => t.deletes e name parentId = some i := by
  rcases delete_cases t e name parentId with ⟨hs, -⟩ | ⟨k, hk, -, -, hc, hs⟩
  · rw [hs]
    exact .refl h
  · rw [hs, hk]
    have he := evolves_remove h hc
    exact ⟨he.sound, he.mounted, he.maxEntries, fun i hi hg =>
      he.keeps i hi fun hik => hg (by rw [hik])⟩

/-- `t'` has a new entry in the free slot `k`, of a name that was not there. -/
structure Creates (t t' : Dirs) (name : Name) (parentId k : ℕ) : Prop where
  free : t.freeSlot = some k
  parent : t.dirExists parentId = true
  fresh : ∀ j < t.maxEntries, (t.table j).named parentId name = false
  eq : ∃ d : DirEntry, d.entryId = k ∧ d.parentId = parentId ∧ t' = t.set k d

lemma createFileRaw_cases (t : Dirs) (e : DirEnv) (name : Name) (parentId : ℕ) :
    ((t.createFileRaw e name parentId).1 ≠ .ok ∧ (t.createFileRaw e name parentId).2 = t) ∨
    ((t.createFileRaw e name parentId).1 = .ok ∧
      ∃ k, Creates t (t.createFileRaw e name parentId).2 name parentId k) := by
  unfold createFileRaw
  split_ifs with hm hn hd he
  · simp
  · simp
  · simp
  · simp
  · rcases hk : t.freeSlot with _ | k
    · simp
    · rcases hda : e.data with _ | ⟨cluster, size⟩
      · simp
      · refine .inr ⟨rfl, k, hk, by simpa using hd, ?_, _, rfl, rfl, rfl⟩
        exact lastIdx_eq_none.1 (by simpa [findLast] using he)

lemma createFile_cases (t : Dirs) (e : DirEnv) (name : Name) (parentId : ℕ) :
    ((t.createFile e name parentId).1 ≠ .ok ∧ (t.createFile e name parentId).2 = t) ∨
    ((t.createFile e name parentId).1 = .ok ∧
      ∃ k, Creates t (t.createFile e name parentId).2 name parentId k) := by
  unfold createFile
  split_ifs
  · simp
  · simp
  · simp
  · simp
  · exact createFileRaw_cases t e name parentId
  · exact createFileRaw_cases t e name parentId

lemma Creates.grows (hc : Creates t t' name parentId k) : Grows t t' := by
  obtain ⟨d, hi, rfl, rfl⟩ := hc.eq
  exact .insert .refl hc.free hi hc.parent

lemma createFileRaw_grows : Grows t (t.createFileRaw e name parentId).2 := by
  rcases createFileRaw_cases t e name parentId with ⟨-, hs⟩ | ⟨-, k, hc⟩
  · rw [hs]
    exact .refl
  · exact hc.grows

lemma createFile_grows : Grows t (t.createFile e name parentId).2 := by
  rcases createFile_cases t e name parentId with ⟨-, hs⟩ | ⟨-, k, hc⟩
  · rw [hs]
    exact .refl
  · exact hc.grows

lemma mkdir_cases (t : Dirs) (e : DirEnv) (name : Name) (parentId : ℕ) :
    (t.mkdir e name parentId).2 = t ∨ ∃ k, t.freeSlot = some k ∧ t.dirExists parentId = true ∧
      t.entryIdx name parentId = Option.none ∧
      (t.mkdir e name parentId).2 = t.set k (newDirEntry e.toEnv k name parentId) := by
  unfold mkdir
  split_ifs with hm hl hn hd he
  · exact .inl rfl
  · exact .inl rfl
  · exact .inl rfl
  · exact .inl rfl
  · exact .inl rfl
  · rcases hk : t.freeSlot with _ | k
    · exact .inl rfl
    · exact .inr ⟨k, rfl, by simpa using hd, by simpa using he, rfl⟩

lemma mkdir_grows : Grows t (t.mkdir e name parentId).2 := by
  rcases mkdir_cases t e name parentId with heq | ⟨k, hk, hp, -, heq⟩
  · rw [heq]
    exact .refl
  · rw [heq]
    exact .insert .refl hk rfl hp

lemma rename_cases (t : Dirs) (e : DirEnv) (oldName newName : Name) (parentId : ℕ) :
    (t.rename e oldName newName parentId).2 = t ∨
      ∃ i, (t.find fun d => d.named1 parentId oldName) = some i ∧
        (t.find fun d => d.named1 parentId newName) = Option.none ∧
        (t.rename e oldName newName parentId).2 =
          t.set i { t.table i with filename := newName, ctime := e.now } := by
  unfold rename
  split_ifs with hm hn hl he
  · exact .inl rfl
  · exact .inl rfl
  · exact .inl rfl
  · exact .inl rfl
  · rcases hi : t.find fun d => d.named1 parentId oldName with _ | i
    · exact .inl rfl
    · exact .inr ⟨i, rfl, by simpa using he, rfl⟩

lemma rename_grows (oldName newName : Name) :
    Grows t (t.rename e oldName newName parentId).2 := by
  rcases rename_cases t e oldName newName parentId with heq | ⟨i, -, -, heq⟩
  · rw [heq]
    exact .refl
  · rw [heq]
    exact .rewrite .refl ⟨rfl, rfl, rfl, rfl⟩

lemma changeEntry_grows {change : DirEntry → DirEntry} (hc : ∀ d, SamePlace d (change d))
    (entryId : ℕ) : Grows t (t.changeEntry e entryId change).2 := by
  unfold changeEntry
  split_ifs
  · exact .refl
  · exact .refl
  · split
    · exact .refl
    · obtain ⟨hu, ht, hi, hp⟩ := hc (t.table _)
      exact .rewrite .refl ⟨hu, ht, hi, hp⟩

lemma swap_grows (orig tmp : ℕ) : Grows t (t.swap e orig tmp) :=
  .rewrite (.rewrite .refl ⟨rfl, rfl, rfl, rfl⟩) ⟨rfl, rfl, rfl, rfl⟩

/-- Every slot is taken by the same name, or free, in both tables. -/
def SameNames (t t' : Dirs) : Prop :=
  t'.maxEntries = t.maxEntries ∧ ∀ j, (t'.table j).isUsed = (t.table j).isUsed ∧
    (t'.table j).parentId = (t.table j).parentId ∧ (t'.table j).filename = (t.table j).filename

lemma swap_sameNames (orig tmp : ℕ) : t.SameNames (t.swap e orig tmp) := by
  refine ⟨rfl, fun j => ?_⟩
  unfold swap set
  by_cases ht : j = tmp <;> by_cases ho : j = orig
  · subst ht ho
    simp
  · subst ht
    simp [ho]
  · subst ho
    simp [ht]
  · simp [ht, ho]

/-- A name that was just created is deleted from the slot that it was given. -/
lemma Creates.deletes {t'' : Dirs} (hc : Creates t t' name parentId k) (hsame : t'.SameNames t'')
    (hd : t''.deletes e name parentId = some i) : i = k := by
  by_contra hik
  rcases delete_cases t'' e name parentId with ⟨-, hn⟩ | ⟨j, hj, hlt, hna, -⟩
  · rw [hn] at hd
    simp at hd
  · rw [hd, Option.some.injEq] at hj
    subst hj
    obtain ⟨d, -, -, rfl⟩ := hc.eq
    obtain ⟨hm, hco⟩ := hsame
    obtain ⟨hu, hp, hnm⟩ := hco i
    simp only [set, update_of_ne hik] at hu hp hnm hm
    have ho := hc.fresh i (by omega)
    simp only [named1, hu, hp, hnm, Bool.and_eq_true, beq_iff_eq] at hna
    simp [named, hna] at ho

lemma empties_update (content : Content) (hex : ¬ (t.entryIdx name parentId).isNone = true) :
    t.empties e (.update name content parentId) = t.deletes e (tmpName name) parentId :=
  if_pos (by simpa [Option.isSome_iff_ne_none] using hex)

lemma atomicUpdate_evolves (h : t.Sound) (content : Content) :
    Evolves t (t.atomicUpdate e name parentId).2
      fun i => t.empties e (.update name content parentId) = some i := by
  unfold atomicUpdate
  split_ifs with hm hl hex
  · exact .refl h
  · exact .refl h
  · exact createFile_grows.evolves h
  · rw [empties_update content hex]
    have hde := @delete_evolves t e (tmpName name) parentId h
    set t1 := (t.delete e (tmpName name) parentId).2
    -- from here on only the slot of the temporary file is emptied, which was free
    have hla : ∀ {t2 t3 : Dirs} {k : ℕ}, Creates t1 t2 (tmpName name) parentId k →
        Grows t2 t3 → t2.SameNames t3 →
        Evolves t (t3.delete e (tmpName name) parentId).2
          fun i => t.deletes e (tmpName name) parentId = some i := by
      intro t2 t3 k hc hg hsame
      have ht : Evolves t t3 fun i => t.deletes e (tmpName name) parentId = some i :=
        have h2 := hde.trans (hc.grows.evolves hde.sound) fun _ _ => id
        h2.trans (hg.evolves h2.sound) fun _ _ => id
      refine ht.trans (delete_evolves ht.sound) fun i hi hg hd => ?_
      have hik := hc.deletes hsame hd
      subst hik
      exact (hde.keeps i hi hg).1.2 (freeSlot_some hc.free).2
    rcases createFile_cases t1 e (tmpName name) parentId with ⟨hne, hs⟩ | ⟨hok, k, hc⟩
    · rw [if_pos hne, hs]
      exact hde
    · rw [if_neg (not_not.2 hok)]
      unfold finishUpdate
      split
      · rename_i orig tmp _ _
        exact hla hc (swap_grows orig tmp) (swap_sameNames orig tmp)
      · exact hla hc .refl ⟨rfl, fun _ => ⟨rfl, rfl, rfl⟩⟩

/-- Every operation keeps every used slot but the one it empties. -/
lemma run_evolves (h : t.Sound) (op : FsOp) :
    Evolves t (t.run e op).2 fun i => t.empties e op = some i := by
  cases op with
  | createRaw name content parentId => exact createFileRaw_grows.evolves h
  | create name content parentId => exact createFile_grows.evolves h
  | mkdir name parentId => exact mkdir_grows.evolves h
  | delete name parentId => exact delete_evolves h
  | rename oldName newName parentId => exact (rename_grows oldName newName).evolves h
  | update name content parentId => exact atomicUpdate_evolves h content
  | chmod entryId mode =>
    refine Grows.evolves (changeEntry_grows ?_ entryId) h
    exact fun d => ⟨rfl, rfl, rfl, rfl⟩
  | chown entryId uid gid =>
    refine Grows.evolves (changeEntry_grows ?_ entryId) h
    exact fun d => ⟨rfl, rfl, rfl, rfl⟩

lemma run_unmounted (h : t.mounted = false) (op : FsOp) : (t.run e op).2 = t := by
  have hr : ∀ name parentId, (t.createFileRaw e name parentId).2 = t := fun name parentId => by
    simp [createFileRaw, h]
  cases op <;> simp only [run]
  · exact hr _ _
  · unfold createFile
    split_ifs <;> first | rfl | exact hr _ _
  · simp [mkdir, h]
  · simp [delete, h]
  · simp [rename, h]
  · simp [atomicUpdate, h]
  · simp [changeEntry, h]
  · simp [changeEntry, h]

lemma Sound.parentOf (h : t.Sound) {id up : ℕ} (hp : t.parentOf id = some up) : t.Place up := by
  obtain ⟨i, hi, rfl⟩ := Option.map_eq_some_iff.1 hp
  obtain ⟨hlt, ht⟩ := find_some hi
  simp only [Bool.and_eq_true, beq_iff_eq] at ht
  exact h.parents i hlt ht.2

lemma Sound.entryIdx (h : t.Sound) (hi : t.entryIdx name parentId = some i)
    (hd : (t.table i).fileType = ftDir) : t.Place (t.table i).entryId := by
  obtain ⟨hlt, ht⟩ := find_some hi
  simp only [named, Bool.and_eq_true, bne_iff_ne, ne_eq] at ht
  have hu : t.Used i := ⟨hlt, ht.1.1⟩
  rw [h.ids i hu]
  exact .inr ⟨hu, hd⟩

lemma Sound.enter (h : t.Sound) {current next : ℕ} {token : Name} (hc : t.Place current)
    (hr : t.enter current token = .ok next) : t.Place next := by
  unfold Dirs.enter at hr
  split_ifs at hr
  · simp only [Except.ok.injEq] at hr
    exact hr ▸ hc
  · simp only [Except.ok.injEq] at hr
    exact .inl hr.symm
  · simp only [Except.ok.injEq] at hr
    subst hr
    · rcases hp : t.parentOf current with _ | up
      · exact hc
      · exact h.parentOf hp
  · rcases hi : t.entryIdx token current with _ | idx
    · simp [hi] at hr
    · rw [hi] at hr
      dsimp only at hr
      split_ifs at hr with hd
      simp only [Except.ok.injEq] at hr
      exact hr ▸ h.entryIdx hi (not_not.1 hd)

lemma Sound.resolve (h : t.Sound) : ∀ (path : List Char) {current : ℕ} {token : Name}
    {r : ℕ × Name}, t.Place current → t.resolve path current token = .ok r → t.Place r.1
  | [], current, token, r, hc, hr => by
    simp only [Dirs.resolve, Except.ok.injEq] at hr
    exact hr ▸ hc
  | c :: path, current, token, r, hc, hr => by
    rw [Dirs.resolve] at hr
    split_ifs at hr
    · rcases hn : t.enter current token with err | next
      · simp [hn] at hr
      · rw [hn] at hr
        exact h.resolve path (h.enter hc hn) hr
    · exact h.resolve path hc hr

lemma Sound.resolvePath (h : t.Sound) {path : List Char} {start : ℕ} {r : ℕ × Name}
    (hc : t.Place start) (hr : t.resolvePath path start = .ok r) : t.Place r.1 := by
  unfold Dirs.resolvePath at hr
  split at hr
  · simp at hr
  · exact h.resolve _ (.inl rfl) hr
  · exact h.resolve _ hc hr

lemma Sound.resolveDirFromCwd (h : t.Sound) {uid gid cwd target : ℕ} {path : List Char}
    (hc : t.Place cwd) (hr : t.resolveDirFromCwd uid gid cwd path = .ok target) :
    t.Place target := by
  unfold Dirs.resolveDirFromCwd at hr
  rcases hp : t.resolvePath path cwd with err | ⟨parent, basename⟩
  · simp [hp] at hr
  have hpa : t.Place parent := h.resolvePath hc hp
  rw [hp] at hr
  dsimp only at hr
  split at hr
  · simp at hr
  · rename_i id hid
    split_ifs at hr
    simp only [Except.ok.injEq] at hr
    subst hr
    split_ifs at hid
    · simp only [Except.ok.injEq] at hid
      exact hid ▸ hpa
    · simp only [Except.ok.injEq] at hid
      subst hid
      rcases hu : t.parentOf parent with _ | up
      · exact .inl rfl
      · exact h.parentOf hu
    · rcases hi : t.entryIdx basename parent with _ | idx
      · simp [hi] at hid
      · rw [hi] at hid
        dsimp only at hid
        split_ifs at hid with hd
        simp only [Except.ok.injEq] at hid
        exact hid ▸ h.entryIdx hi (not_not.1 hd)

section Validate

lemma walkParents_place : ∀ {ho curr : ℕ}, t.walkParents ho curr = true → t.Place curr
  | 0, curr, h => .inl (by simpa [walkParents] using h)
  | ho + 1, curr, h => by
    rw [walkParents] at h
    split_ifs at h with h0 hm hb
    · exact .inl h0
    · simp only [not_or, not_not] at hb
      exact .inr ⟨⟨not_le.1 hm, hb.1⟩, hb.2.2⟩

lemma sound_of_validate (h : t.validate = true) : t.Sound := by
  have he : ∀ i, t.Used i → t.validEntry i = true := by
    intro i hi
    have := all_eq_true.1 h i (mem_range.2 hi.1)
    simpa [hi.2] using this
  refine ⟨fun i hi => ?_, fun i hi h1 => ?_⟩
  · have hv := he i hi
    unfold validEntry at hv
    split_ifs at hv with hid
    exact not_not.1 hid
  · have hv := he i ⟨hi, by omega⟩
    unfold validEntry at hv
    split_ifs at hv
    exact walkParents_place hv

variable {sb : Superblock} {p : TableBlocks sb} {mem : ℕ → UInt8} {mounted : Bool}

lemma walkParents_eq : ∀ (ho curr : ℕ) (m : TableMem),
    (EsdumanOS.walkParents sb p ho curr m).1 = (ofMemory sb p m.mem mounted).walkParents ho curr
  | 0, curr, m => rfl
  | ho + 1, curr, m => by
    rw [EsdumanOS.walkParents, Dirs.walkParents]
    -- the two loops read the same fields
    change _ = if curr = 0 then true else if sb.maxEntries ≤ curr then false
      else if entryUsed sb p m curr = 0 ∨ entryIdOf sb p m curr ≠ curr ∨
        entryType sb p m curr ≠ ftDir then false
      else (ofMemory sb p m.mem mounted).walkParents ho (entryParent sb p m curr)
    split_ifs
    · rfl
    · rfl
    · rfl
    · exact walkParents_eq ho _ (touchEntry sb p m curr)

lemma validateEntry_eq (i : ℕ) (m : TableMem) :
    (validateEntry sb p m i).1 = (ofMemory sb p m.mem mounted).validEntry i := by
  unfold validateEntry validEntry
  change _ = if entryIdOf sb p m i ≠ i then false
    else if entryType sb p m i ≠ ftRegular ∧ entryType sb p m i ≠ ftDir then false
    else if entryStart sb p m i ≠ 0 ∧ (entryStart sb p m i < fsFirstDataCluster ∨
      sb.totalClusters ≤ entryStart sb p m i) then false
    else (ofMemory sb p m.mem mounted).walkParents sb.maxEntries (entryParent sb p m i)
  split_ifs
  · rfl
  · rfl
  · rfl
  · exact walkParents_eq _ _ m

lemma walkParents_mem : ∀ (ho curr : ℕ) {m : TableMem},
    (EsdumanOS.walkParents sb p ho curr m).2.mem = m.mem
  | 0, _, _ => rfl
  | ho + 1, curr, m => by
    rw [EsdumanOS.walkParents]
    split_ifs
    · rfl
    · rfl
    · rfl
    · exact walkParents_mem ho _

lemma validateEntry_mem (i : ℕ) {m : TableMem} : (validateEntry sb p m i).2.mem = m.mem := by
  unfold validateEntry
  split_ifs
  · rfl
  · rfl
  · rfl
  · exact walkParents_mem _ _

lemma fsValidateDirectoryTable_eq : ∀ (is : List ℕ) {m : TableMem}, m.mem = mem →
    (fsValidateDirectoryTable sb p is m).1 = is.all fun i =>
      decide (((ofMemory sb p mem mounted).table i).isUsed = 0) ||
        (ofMemory sb p mem mounted).validEntry i
  | [], _, _ => rfl
  | i :: is, m, hm => by
    have hu : ((ofMemory sb p mem mounted).table i).isUsed = entryUsed sb p m i := by
      subst hm
      rfl
    have he : (validateEntry sb p (touchEntry sb p m i) i).1 =
        (ofMemory sb p mem mounted).validEntry i := by
      rw [← hm]
      exact validateEntry_eq i (touchEntry sb p m i)
    have hmem := (@validateEntry_mem sb p i (touchEntry sb p m i)).trans hm
    rw [fsValidateDirectoryTable, all_cons, hu, ← he]
    dsimp only
    split_ifs with h0 hok
    · rw [@fsValidateDirectoryTable_eq is (touchEntry sb p m i) hm]
      simp [h0]
    · rw [fsValidateDirectoryTable_eq is hmem]
      simp [hok]
    · simp [h0, hok]

/-- The validator of the volume is that of the table in its memory. -/
lemma tableAccepted_eq : tableAccepted sb p mem = (ofMemory sb p mem mounted).validate :=
  fsValidateDirectoryTable_eq _ rfl

end Validate

end Dirs

section Refinement

variable {e : Env} {s s' : Fs} {name : Name} {parentId : ℕ}

def dirResult (r : Errno × Fs) : Errno × Dirs := (r.1, r.2.dirs)

lemma Agree.dirs (h : Agree s s') : s.dirs = s'.dirs := by
  simp only [Fs.dirs, h.geo, h.mounted, h.dirTable]

lemma dirs_mounted : s.dirs.mounted = s.mounted := rfl
lemma dirs_table (i : ℕ) : s.dirs.table i = s.dirTable i := rfl
lemma dirs_dirExists : s.dirs.dirExists parentId = fsDirExists s parentId := rfl
lemma dirs_freeSlot : s.dirs.freeSlot = freeSlot s := rfl
lemma dirs_slotOf (entryId : ℕ) : s.dirs.slotOf entryId = fsSlotOf s entryId := rfl
lemma setEntry_dirs (i : ℕ) (d : DirEntry) : (s.setEntry i d).dirs = s.dirs.set i d := rfl

lemma dirs_find (p : DirEntry → Bool) :
    s.dirs.find p = firstIdx (fun i => p (s.dirTable i)) s.geo.maxEntries := rfl

lemma dirs_findLast (p : DirEntry → Bool) :
    s.dirs.findLast p = lastIdx (fun i => p (s.dirTable i)) s.geo.maxEntries := rfl

lemma saveDirectoryToDisk_dirs : (saveDirectoryToDisk e s).dirs = s.dirs :=
  (saveDirectoryToDisk_agrees e s).dirs

lemma saveFatToDisk_dirs (fat : ℕ → ℕ) : (saveFatToDisk e (s.setFat fat)).dirs = s.dirs :=
  (saveFatToDisk_agrees e _).dirs

lemma fsWriteSector_dirs (rel : ℕ) (b : Buf) : (fsWriteSector e s rel b).2.dirs = s.dirs := by
  rw [fsWriteSector_eq]
  rfl

lemma writeChunks_dirs (content : Buf) (size base : ℕ) : ∀ (ks : List ℕ) (st : Fs × ℕ),
    (ks.foldl (writeChunk e content size base) st).1.dirs = st.1.dirs
  | [], _ => rfl
  | k :: ks, st => by
    rw [foldl_cons, writeChunks_dirs content size base ks]
    exact fsWriteSector_dirs _ _

lemma writeClusters_dirs (content : Buf) (size : ℕ) : ∀ (n current : ℕ) (st : Fs × ℕ),
    (writeClusters e content size n current st).1.dirs = st.1.dirs
  | 0, _, _ => rfl
  | n + 1, current, st => by
    rw [writeClusters]
    split_ifs
    · rfl
    · rw [writeClusters_dirs content size n, writeChunks_dirs]

lemma allocateFatChain_dirs (count : ℕ) : (allocateFatChain e s count).2.dirs = s.dirs := by
  unfold allocateFatChain
  split_ifs
  · rfl
  · dsimp only
    split_ifs
    · rfl
    · exact saveFatToDisk_dirs _

lemma fsCreateFileRaw_dirs (content : Buf) (size : ℕ) : ∃ data,
    s.dirs.createFileRaw ⟨e, data⟩ name parentId =
      dirResult (fsCreateFileRaw e s name content size parentId) := by
  set r := allocateFatChain e s (clustersNeeded size) with hr
  have halloc : r.2.dirs = s.dirs := allocateFatChain_dirs _
  refine ⟨if r.1 = fatFree then none else some (r.1, size), ?_⟩
  generalize hd : (if r.1 = fatFree then none else some (r.1, size)) = data
  unfold fsCreateFileRaw Dirs.createFileRaw
  dsimp +instances only [dirs_mounted, dirs_dirExists, dirs_findLast, dirs_freeSlot]
  rw [← hr, ← hd]
  split_ifs
  · rfl
  · rfl
  · rfl
  · rfl
  · rcases freeSlot s with _ | k
    · rfl
    · rw [dirResult, halloc]
  · rcases freeSlot s with _ | k
    · rfl
    · rw [dirResult, saveDirectoryToDisk_dirs, setEntry_dirs, writeClusters_dirs, halloc]

lemma fsCreateFile_dirs (content : Buf) (size : ℕ) : ∃ data,
    s.dirs.createFile ⟨e, data⟩ name parentId =
      dirResult (fsCreateFile e s name content size parentId) := by
  unfold fsCreateFile fsCreateEncrypted Dirs.createFile
  split_ifs with h1 h2 h3 h4
  · exact ⟨none, rfl⟩
  · exact ⟨none, rfl⟩
  · exact ⟨none, rfl⟩
  · change ∃ data, (if e.iv.isNone then _ else _) = _
    rcases hi : e.iv with _ | iv
    · exact ⟨none, rfl⟩
    · exact fsCreateFileRaw_dirs _ _
  · exact fsCreateFileRaw_dirs _ _

lemma fsDelete_dirs (data : Option (ℕ × ℕ)) : s.dirs.delete ⟨e, data⟩ name parentId =
    dirResult (fsDelete e s name parentId) := by
  unfold fsDelete Dirs.delete Dirs.hasChild
  dsimp +instances only [dirs_mounted, dirs_find, dirs_table]
  split_ifs
  · rfl
  · rfl
  · rcases firstIdx (fun i => (s.dirTable i).named1 parentId name) s.geo.maxEntries with _ | i
    · rfl
    · dsimp only
      split_ifs
      · rfl
      · simp only [dirResult, saveDirectoryToDisk_dirs, setEntry_dirs, ← dirs_table,
          saveFatToDisk_dirs]

lemma finishUpdate_dirs (data : Option (ℕ × ℕ)) : s.dirs.finishUpdate ⟨e, data⟩ name parentId =
    dirResult (match lastIdx (fun i => (s.dirTable i).named parentId name) s.geo.maxEntries,
        lastIdx (fun i => (s.dirTable i).named parentId (tmpName name)) s.geo.maxEntries with
      | some orig, some tmp =>
        (.ok, (fsDelete e (saveDirectoryToDisk e (s.setDir (swapData e s orig tmp)))
          (tmpName name) parentId).2)
      | _, _ => (.noent, (fsDelete e s (tmpName name) parentId).2)) := by
  simp only [Dirs.finishUpdate, dirs_findLast]
  rcases lastIdx (fun i => (s.dirTable i).named parentId name) s.geo.maxEntries with _ | orig
  · rw [fsDelete_dirs]
    rfl
  rcases lastIdx (fun i => (s.dirTable i).named parentId (tmpName name)) s.geo.maxEntries with
    _ | tmp
  · rw [fsDelete_dirs]
    rfl
  · have hs : s.dirs.swap ⟨e, data⟩ orig tmp =
        (saveDirectoryToDisk e (s.setDir (swapData e s orig tmp))).dirs := by
      rw [saveDirectoryToDisk_dirs]
      rfl
    dsimp only
    rw [hs, fsDelete_dirs]
    rfl

lemma fsAtomicUpdate_dirs (content : Buf) (size : ℕ) : ∃ data,
    s.dirs.atomicUpdate ⟨e, data⟩ name parentId =
      dirResult (fsAtomicUpdate e s name content size parentId) := by
  unfold fsAtomicUpdate Dirs.atomicUpdate Dirs.entryIdx
  simp only [fsDelete_dirs, dirResult]
  dsimp +instances only [dirs_mounted, dirs_find]
  split_ifs
  · exact ⟨none, rfl⟩
  · exact ⟨none, rfl⟩
  · exact fsCreateFile_dirs content size
  · set s1 := (fsDelete e s (tmpName name) parentId).2
    obtain ⟨data, hd⟩ := @fsCreateFile_dirs e s1 (tmpName name) parentId content size
    refine ⟨data, ?_⟩
    rw [hd]
    rcases fsCreateFile e s1 (tmpName name) content size parentId with ⟨err, s2⟩
    rcases eq_or_ne err .ok with rfl | hne
    · exact finishUpdate_dirs data
    · rw [if_pos (by simpa [dirResult] using hne)]
      split
      · rename_i heq
        simp only [Prod.mk.injEq] at heq
        exact absurd heq.1 hne
      · rename_i heq
        rw [heq]
        rfl

lemma fsMkdir_dirs (data : Option (ℕ × ℕ)) :
    s.dirs.mkdir ⟨e, data⟩ name parentId = dirResult (fsMkdir e s name parentId) := by
  unfold fsMkdir Dirs.mkdir Dirs.entryIdx
  dsimp +instances only [dirs_mounted, dirs_dirExists, dirs_find, dirs_freeSlot]
  split_ifs
  · rfl
  · rfl
  · rfl
  · rfl
  · rfl
  · rcases freeSlot s with _ | k
    · rfl
    · rw [dirResult, saveDirectoryToDisk_dirs, setEntry_dirs]

lemma fsRename_dirs (data : Option (ℕ × ℕ)) (oldName newName : Name) :
    s.dirs.rename ⟨e, data⟩ oldName newName parentId =
      dirResult (fsRename e s oldName newName parentId) := by
  unfold fsRename Dirs.rename
  dsimp +instances only [dirs_mounted, dirs_find]
  split_ifs
  · rfl
  · rfl
  · rfl
  · rfl
  · rcases firstIdx (fun i => (s.dirTable i).named1 parentId oldName) s.geo.maxEntries with _ | i
    · rfl
    · rw [dirResult, saveDirectoryToDisk_dirs, setEntry_dirs]
      rfl

lemma changeEntry_dirs (data : Option (ℕ × ℕ)) (entryId : ℕ) (change : DirEntry → DirEntry) :
    s.dirs.changeEntry ⟨e, data⟩ entryId change = dirResult (changeEntry e s entryId change) := by
  unfold changeEntry Dirs.changeEntry
  dsimp +instances only [dirs_mounted, dirs_slotOf]
  split_ifs
  · rfl
  · rfl
  · rcases fsSlotOf s entryId with _ | i
    · rfl
    · rw [dirResult, saveDirectoryToDisk_dirs, setEntry_dirs]
      rfl

/-- Every call, seen on the directory table, is the call on the table. -/
theorem FsOp.run_dirs (e : Env) (s : Fs) (op : FsOp) :
    ∃ data, s.dirs.run ⟨e, data⟩ op = dirResult (op.run e s) := by
  cases op with
  | createRaw name content parentId => exact fsCreateFileRaw_dirs _ _
  | create name content parentId => exact fsCreateFile_dirs _ _
  | mkdir name parentId => exact ⟨none, fsMkdir_dirs none⟩
  | delete name parentId => exact ⟨none, fsDelete_dirs none⟩
  | rename oldName newName parentId => exact ⟨none, fsRename_dirs none oldName newName⟩
  | update name content parentId => exact fsAtomicUpdate_dirs _ _
  | chmod entryId mode =>
    exact ⟨none, changeEntry_dirs none entryId fun d => { d with mode := mode % 0o10000 }⟩
  | chown entryId uid gid =>
    exact ⟨none, changeEntry_dirs none entryId fun d => { d with ownerUid := uid, ownerGid := gid }⟩

end Refinement

end EsdumanOS
