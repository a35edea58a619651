import EsdumanOS.Editor

/-!
# A clean buffer is on the disk

Every key leaves the text alone or sets the flag (`Tracks`), provided no record has a negative
cursor, which counts as nothing undone. A load that sees the whole file ends with its contents, and
a save whose calls all succeed has put the text on the disk.
-/

namespace EsdumanOS

open Lib List EbUndo EditBuf Editor EditorSys

variable {b : EditBuf} {u : Option EbUndo} {off cursor : ℕ}

section Log

def EbUndo.Nonneg (u : EbUndo) : Prop :=
  ∀ r ∈ u.recs, 0 ≤ r.cursor

variable {u : EbUndo}

lemma EbUndo.Nonneg.group (h : u.Nonneg) : u.ebUndoGroup.Nonneg := h

lemma EbUndo.Nonneg.dropOldest (h : u.Nonneg) : u.ebUndoDropOldest.Nonneg := by
  unfold ebUndoDropOldest
  split_ifs
  · exact h
  · intro r hr
    obtain ⟨r', hr', rfl⟩ := mem_map.1 hr
    exact h r' (mem_of_mem_drop hr')

lemma EbUndo.Nonneg.roomLoop {need : ℕ} : ∀ {fuel : ℕ} {u : EbUndo}, u.Nonneg →
    (roomLoop need fuel u).2.Nonneg
  | 0, _, h => h
  | fuel + 1, u, h => by
    unfold EbUndo.roomLoop
    split_ifs
    · exact h.dropOldest
    · exact Nonneg.roomLoop h.dropOldest
    · exact h

lemma EbUndo.Nonneg.pushRecord (h : u.Nonneg) (off inserted : ℕ) (removed : List UInt8)
    (cursor : ℕ) : (u.pushRecord off inserted removed cursor).Nonneg := by
  have hro : (u.ebUndoRoom removed.length).2.Nonneg := by
    unfold ebUndoRoom
    split_ifs
    · exact h
    · exact h.roomLoop
  unfold EbUndo.pushRecord
  split
  · exact fun r hr => absurd hr (by simp [ebUndoReset])
  · rename_i u' hu
    rw [hu] at hro
    intro r hr
    rcases mem_append.1 hr with hr | hr
    · exact hro r hr
    · rw [mem_singleton.1 hr]
      exact Int.natCast_nonneg cursor

lemma EbUndo.Nonneg.push (h : u.Nonneg) (off inserted : ℕ) (removed : List UInt8) (cursor : ℕ) :
    (u.ebUndoPush off inserted removed cursor).Nonneg := by
  unfold ebUndoPush
  split_ifs
  · exact h
  split
  · rename_i r hl
    split_ifs
    · intro r' hr'
      rcases mem_append.1 hr' with hr' | hr'
      · exact h r' (mem_of_mem_dropLast hr')
      · rw [mem_singleton.1 hr']
        exact h r (mem_of_getLast? hl)
    · exact h.pushRecord _ _ _ _
  · exact h.pushRecord _ _ _ _

lemma applyLoop_nonneg {g : ℤ} : ∀ {fuel : ℕ} {cursor : ℤ} {b : EditBuf} {u : EbUndo}, u.Nonneg →
    (0 ≤ cursor → 0 ≤ (applyLoop g fuel cursor b u).1) ∧ (applyLoop g fuel cursor b u).2.2.Nonneg
  | 0, _, _, _, h => ⟨fun hc => hc, h⟩
  | fuel + 1, cursor, b, u, h => by
    unfold applyLoop
    rcases hl : u.recs.getLast? with _ | r
    · exact ⟨fun hc => hc, h⟩
    dsimp only
    split_ifs
    · have hr : ({ u with recs := u.recs.dropLast, arena := u.arena.take r.text } :
        EbUndo).Nonneg :=
        fun r' hr' => h r' (mem_of_mem_dropLast hr')
      obtain ⟨hcu, hlo⟩ := applyLoop_nonneg hr
      exact ⟨fun _ => hcu (h r (mem_of_getLast? hl)), hlo⟩
    · exact ⟨fun hc => hc, h⟩

lemma ebUndoApply_neg (h : u.Nonneg) (hne : (ebUndoApply b u).1 < 0) :
    (ebUndoApply b u).2.1 = b := by
  unfold ebUndoApply at hne ⊢
  rcases hl : u.recs.getLast? with _ | r
  · rfl
  rw [hl] at hne
  dsimp only at hne
  obtain ⟨n, hn⟩ : ∃ n, u.recs.length = n + 1 := by
    refine ⟨u.recs.length - 1, ?_⟩
    have := length_pos_of_mem (mem_of_getLast? hl)
    omega
  rw [hn, applyLoop, hl] at hne
  simp only [↓reduceIte] at hne
  have hr : ({ u with recs := u.recs.dropLast, arena := u.arena.take r.text } : EbUndo).Nonneg :=
    fun r' hr' => h r' (mem_of_mem_dropLast hr')
  exact absurd ((applyLoop_nonneg hr).1 (h r (mem_of_getLast? hl))) (not_le.2 hne)

lemma ebUndoApply_nonneg (h : u.Nonneg) : (ebUndoApply b u).2.2.Nonneg := by
  unfold ebUndoApply
  split
  · exact h
  · exact (applyLoop_nonneg h).2

end Log

section Keys

def Editor.LogOk (s : Editor) : Prop :=
  ∀ u ∈ s.undo, u.Nonneg

structure Tracks (s s' : Editor) : Prop where
  text : s'.dirty = true ∨ s'.buf.data = s.buf.data ∧ s'.dirty = s.dirty
  filename : s'.filename = s.filename
  quitting : s'.quitting = s.quitting
  logOk : s.LogOk → s'.LogOk

variable {s s' s'' : Editor}

lemma Tracks.rfl : Tracks s s := ⟨Or.inr ⟨Eq.refl _, Eq.refl _⟩, Eq.refl _, Eq.refl _, id⟩

lemma Tracks.trans (h : Tracks s s') (h' : Tracks s' s'') : Tracks s s'' := by
  refine ⟨?_, h'.filename.trans h.filename, h'.quitting.trans h.quitting, h'.logOk ∘ h.logOk⟩
  rcases h'.text with hd' | ⟨ht', hd'⟩
  · exact .inl hd'
  · rcases h.text with hd | ⟨ht, hd⟩
    · exact .inl (hd'.trans hd)
    · exact .inr ⟨ht'.trans ht, hd'.trans hd⟩

lemma Tracks.of_same (hb : s'.buf = s.buf) (hun : s'.undo = s.undo)
    (hd : s'.dirty = s.dirty) (hn : s'.filename = s.filename)
    (hq : s'.quitting = s.quitting) : Tracks s s' :=
  ⟨.inr ⟨congrArg data hb, hd⟩, hn, hq, fun h u hu => h u (hun ▸ hu)⟩

lemma Tracks.after_same (h : Tracks s' s'') (hb : s'.buf = s.buf) (hu : s'.undo = s.undo)
    (hd : s'.dirty = s.dirty) (hn : s'.filename = s.filename)
    (hq : s'.quitting = s.quitting) : Tracks s s'' :=
  (Tracks.of_same hb hu hd hn hq).trans h

lemma tracks_moveTo (s : Editor) (cursor : ℕ) : Tracks s (s.moveTo cursor) :=
  .of_same rfl rfl rfl rfl rfl

lemma tracks_moveLine (s : Editor) (down : Bool) : Tracks s (s.moveLine down) := by
  unfold moveLine
  split
  · exact .rfl
  · exact .of_same rfl rfl rfl rfl rfl

lemma tracks_movePage (down : Bool) : ∀ (n : ℕ) (s : Editor), Tracks s (s.movePage down n)
  | 0, _ => .rfl
  | n + 1, s => (tracks_moveLine s down).trans (tracks_movePage down n _)

lemma tracks_group (s : Editor) : Tracks s { s with undo := s.undo.map ebUndoGroup } := by
  refine ⟨.inr ⟨rfl, rfl⟩, rfl, rfl, fun h u hu => ?_⟩
  obtain ⟨u', hu', rfl⟩ := Option.map_eq_some_iff.1 hu
  exact (h u' hu').group

lemma tracks_enterInsert (s : Editor) : Tracks s s.enterInsert :=
  (tracks_group s).trans (.of_same rfl rfl rfl rfl rfl)

lemma tracks_searchStep (s : Editor) (forward : Bool) : Tracks s (s.searchStep forward) := by
  unfold searchStep
  split
  · exact .rfl
  split
  · exact .rfl
  · exact tracks_moveTo s _

lemma undoInsert_false {c : UInt8} (h : (undoInsert b u off c cursor).1 = false) :
    (undoInsert b u off c cursor).2.1.data = b.data := by
  have hi : ∀ b' : Bool × EditBuf, b.ebInsert off c = b' → b'.1 = false → b'.2 = b := by
    rintro b' rfl hb
    unfold ebInsert at hb ⊢
    split_ifs at hb ⊢ <;> rfl
  cases u with
  | none => exact congrArg data (hi _ rfl h)
  | some u =>
    simp only [undoInsert, ebUndoInsert] at h ⊢
    rcases hb : b.ebInsert off c with ⟨_ | _, b'⟩
    · exact congrArg data (hi _ hb rfl)
    · simp [hb] at h

lemma undoInsert_log {c : UInt8}
    (h : ∀ v ∈ u, v.Nonneg) : ∀ v ∈ (undoInsert b u off c cursor).2.2, v.Nonneg := by
  cases u with
  | none => simp [undoInsert]
  | some u =>
    simp only [undoInsert, ebUndoInsert]
    have hu := h u rfl
    split <;> intro v hv <;> obtain rfl := Option.some.inj hv
    · exact hu
    · exact hu.push _ _ _ _

lemma tracks_insertAt (s : Editor) (c : UInt8) (advance : ℕ) : Tracks s (s.insertAt c advance) := by
  unfold insertAt
  dsimp only
  split_ifs with h
  · exact ⟨.inl rfl, rfl, rfl, fun hl => undoInsert_log hl⟩
  · exact ⟨.inr ⟨undoInsert_false (by simpa using h), rfl⟩, rfl, rfl, fun hl => undoInsert_log hl⟩

lemma undoDelete_false {off : ℤ} {cursor : ℕ}
    (h : (undoDelete b u off cursor).1 = false) : (undoDelete b u off cursor).2.1 = b := by
  cases u with
  | none =>
    simp only [undoDelete, ebDelete] at h ⊢
    split_ifs at h ⊢
    rfl
  | some u =>
    simp only [undoDelete, ebUndoDelete, ebDelete] at h ⊢
    split_ifs at h ⊢
    rfl

lemma undoDelete_log {off : ℤ} {cursor : ℕ}
    (h : ∀ v ∈ u, v.Nonneg) : ∀ v ∈ (undoDelete b u off cursor).2.2, v.Nonneg := by
  cases u with
  | none => simp [undoDelete]
  | some u =>
    simp only [undoDelete, ebUndoDelete]
    have hu := h u rfl
    split_ifs <;> intro v hv <;> obtain rfl := Option.some.inj hv
    · exact hu
    · exact hu.push _ _ _ _

lemma tracks_deleteAt (s : Editor) (off : ℤ) (back : ℕ) : Tracks s (s.deleteAt off back) := by
  unfold deleteAt
  dsimp only
  split_ifs with h
  · exact ⟨.inl rfl, rfl, rfl, fun hl => undoDelete_log hl⟩
  · exact ⟨.inr ⟨congrArg data (undoDelete_false (by simpa using h)), rfl⟩, rfl, rfl,
      fun hl => undoDelete_log hl⟩

lemma undoDeleteLine_log
    (h : ∀ v ∈ u, v.Nonneg) : ∀ v ∈ (undoDeleteLine b u off cursor).2.2, v.Nonneg := by
  cases u with
  | none => simp [undoDeleteLine]
  | some u =>
    simp only [undoDeleteLine, ebUndoDeleteLine]
    have hu := h u rfl
    intro v hv
    obtain rfl := Option.some.inj hv
    split_ifs
    · exact hu.push _ _ _ _
    · exact hu

lemma tracks_undoKey (s : Editor) (hl : s.LogOk) : Tracks s s.undoKey := by
  have hres : (undoApply s.buf s.undo).1 < 0 → (undoApply s.buf s.undo).2.1 = s.buf := by
    intro hn
    rcases hu : s.undo with _ | u
    · rfl
    · rw [hu] at hn
      exact ebUndoApply_neg (hl u (by simp [hu])) hn
  have hl' : ∀ v ∈ (undoApply s.buf s.undo).2.2, v.Nonneg := by
    unfold undoApply
    rcases hu : s.undo with _ | u
    · simp
    · intro v hv
      obtain rfl := Option.some.inj hv
      exact ebUndoApply_nonneg (hl u (by simp [hu]))
  unfold undoKey
  dsimp only
  split_ifs with hn
  · exact ⟨.inr ⟨congrArg data (hres hn), rfl⟩, rfl, rfl, fun _ => hl'⟩
  · refine ⟨.inl rfl, rfl, rfl, fun _ u hu => ?_⟩
    obtain ⟨u', hu', rfl⟩ := Option.map_eq_some_iff.1 hu
    exact hl' u' hu'

lemma Tracks.ite {c : Prop} [Decidable c] (h : Tracks s s') (h' : Tracks s s'') :
    Tracks s (if c then s' else s'') := by
  split_ifs
  · exact h
  · exact h'

lemma tracks_normalKey (s : Editor) (k : ℕ) (hl : s.LogOk) : Tracks s (s.normalKey k) := by
  have hs : Tracks s { s with pendingG := false, pendingD := false } := .of_same rfl rfl rfl rfl rfl
  refine hs.trans ?_
  unfold normalKey
  dsimp only
  -- moving about
  refine .ite (.ite (tracks_moveTo _ _) (tracks_moveTo _ _)) ?_
  refine .ite (.ite (tracks_moveTo _ _) (tracks_moveTo _ _)) ?_
  refine .ite (tracks_moveLine _ _) (.ite (tracks_moveLine _ _) ?_)
  refine .ite (.of_same rfl rfl rfl rfl rfl) (.ite (tracks_moveTo _ _) ?_)
  refine .ite (tracks_movePage _ _ _) (.ite (tracks_movePage _ _ _) ?_)
  refine .ite (.ite (.of_same rfl rfl rfl rfl rfl) (.of_same rfl rfl rfl rfl rfl)) ?_
  refine .ite (.of_same rfl rfl rfl rfl rfl) ?_
  -- into the insert mode
  refine .ite (tracks_enterInsert _) (.ite (.ite ?_ (tracks_enterInsert _)) ?_)
  · exact (tracks_enterInsert _).after_same rfl rfl rfl rfl rfl
  refine .ite ((tracks_enterInsert _).after_same rfl rfl rfl rfl rfl) ?_
  have ho : ∀ (t : Editor) (cursor advance : ℕ),
      Tracks t ({ t.enterInsert with cursor := cursor }.insertAt newline advance) :=
    fun t _ _ => (tracks_enterInsert t).trans
      ((tracks_insertAt _ _ _).after_same rfl rfl rfl rfl rfl)
  refine .ite (ho _ _ _) (.ite (ho _ _ _) ?_)
  -- deleting and undoing
  refine .ite (.ite ((tracks_group _).trans (tracks_deleteAt _ _ _)) (tracks_group _)) ?_
  refine .ite (.ite ?_ (.of_same rfl rfl rfl rfl rfl)) ?_
  · exact ⟨.inl rfl, rfl, rfl, fun h => undoDeleteLine_log ((tracks_group _).logOk (hs.logOk hl))⟩
  refine .ite (tracks_undoKey _ (hs.logOk hl)) ?_
  -- searching and the status row
  refine .ite (.of_same rfl rfl rfl rfl rfl) (.ite (tracks_searchStep _ _) ?_)
  exact .ite (tracks_searchStep _ _) (.ite (.of_same rfl rfl rfl rfl rfl) .rfl)

lemma tracks_insertKey (s : Editor) (k : ℕ) : Tracks s (s.insertKey k) := by
  unfold insertKey
  have he : ∀ cursor, Tracks s ({ s with insertMode := false }.moveTo cursor) :=
    fun _ => (tracks_moveTo _ _).after_same rfl rfl rfl rfl rfl
  refine .ite (.ite (he _) (he _)) (.ite ?_ ?_)
  · exact .trans (.ite (tracks_deleteAt s _ _) .rfl) (tracks_moveTo _ _)
  refine .ite (tracks_deleteAt s _ _) (.ite (tracks_moveTo s _) (.ite (tracks_moveTo s _) ?_))
  refine .ite (tracks_moveLine s _) (.ite (tracks_moveLine s _) ?_)
  refine .ite (.of_same rfl rfl rfl rfl rfl) (.ite (tracks_moveTo s _) ?_)
  refine .ite ((tracks_insertAt s _ _).trans (.of_same rfl rfl rfl rfl rfl)) ?_
  exact .ite ((tracks_insertAt s _ _).trans (tracks_moveTo _ _)) .rfl

lemma tracks_searchLine (s : Editor) (pat : List UInt8) : Tracks s (s.searchLine pat) :=
  (tracks_searchStep { s with lastPattern := _ } true).after_same rfl rfl rfl rfl rfl

end Keys

section Transfers

variable {results : ℕ → ℤ} {len : ℕ}

lemma moved_succ (results : ℕ → ℤ) (i : ℕ) :
    moved results (i + 1) = moved results i + (results i).toNat := by
  simp [moved, range_succ]

lemma moved_mono (results : ℕ → ℤ) : Monotone (moved results) :=
  monotone_nat_of_le_succ fun i => by rw [moved_succ]; omega

lemma readLoop_whole {content : List UInt8} (hl : content.length ≤ editMaxBytes)
    (ha : MovesAll results content.length) : ∀ (fuel i : ℕ), (∀ j < i, 0 < results j) →
    content.length < moved results i + fuel →
    readLoop content results fuel i (content.take (moved results i)) = content
  | 0, i, _, hf => by
    rw [readLoop, take_of_length_le (by omega)]
  | fuel + 1, i, hp, hf => by
    unfold readLoop
    rw [length_take]
    by_cases he : content.length ≤ moved results i
    · have hd : content.drop (min (moved results i) content.length) = [] := by
        rw [drop_eq_nil_iff]
        omega
      rw [hd, take_of_length_le he]
      simp
    · have hp' : 0 < results i := by
        by_contra hneg
        exact he (ha i hp (not_lt.1 hneg))
      have hm : min (moved results i) content.length = moved results i := by omega
      rw [hm, if_neg (by omega)]
      have hg : (content.drop (moved results i)).take
          (min (results i).toNat (editMaxBytes - moved results i)) =
          (content.drop (moved results i)).take (results i).toNat := by
        rcases Nat.le_total (results i).toNat (editMaxBytes - moved results i) with h | h
        · rw [Nat.min_eq_left h]
        · rw [Nat.min_eq_right h, take_of_length_le (by rw [length_drop]; omega),
            take_of_length_le (by rw [length_drop]; omega)]
      have hne : (content.drop (moved results i)).take (results i).toNat ≠ [] := by
        intro h
        have := congrArg length h
        simp only [length_take, length_drop, length_nil] at this
        omega
      rw [hg, if_neg (by simp only [not_or]; exact ⟨by omega, hne⟩), ← take_add, ← moved_succ]
      refine readLoop_whole hl ha fuel (i + 1) (fun j hj => ?_) ?_
      · rcases Nat.lt_succ_iff_lt_or_eq.1 hj with hj | rfl
        · exact hp j hj
        · exact hp'
      · rw [moved_succ]
        omega

lemma loadFile_whole {disk : Disk} {name : List UInt8} {r : LoadResults}
    (h : LoadsWhole ((disk name).getD []) r) : loadFile disk name r = (disk name).getD [] := by
  unfold LoadsWhole at h
  unfold loadFile
  split_ifs at h ⊢
  · exact h.symm
  · have := readLoop_whole h.1 h.2 (editMaxBytes + 1) 0 (by simp) (by omega)
    simpa [moved] using this

lemma saveLoop_done (fuel i : ℕ) (hp : ∀ j < i, 0 < results j) (hf : len ≤ moved results i + fuel) :
    ((saveLoop len results fuel i (moved results i)).1 = true ↔ MovesAll results len) ∧
    ((saveLoop len results fuel i (moved results i)).1 = true →
      len ≤ (saveLoop len results fuel i (moved results i)).2) := by
  -- what has been moved already stays moved
  have hd : len ≤ moved results i → MovesAll results len := by
    intro h i' _ hi'
    refine h.trans (moved_mono results ?_)
    by_contra hlt
    exact absurd (hp i' (not_le.1 hlt)) (not_lt.2 hi')
  induction fuel generalizing i with
  | zero =>
    have h : len ≤ moved results i := by omega
    simp [saveLoop, h, hd h]
  | succ fuel ih =>
    unfold saveLoop
    split_ifs with he hn
    · simp [he, hd he]
    · refine ⟨iff_of_false (by simp) fun ha => he (ha i hp hn), by simp⟩
    · rw [← moved_succ]
      have hp' : ∀ j < i + 1, 0 < results j := by
        intro j hj
        rcases Nat.lt_succ_iff_lt_or_eq.1 hj with hj | rfl
        · exact hp j hj
        · exact not_le.1 hn
      refine ih (i + 1) hp' (by rw [moved_succ]; omega) fun h i' _ hi' => ?_
      refine h.trans (moved_mono results ?_)
      by_contra hlt
      exact absurd (hp' i' (not_le.1 hlt)) (not_lt.2 hi')

variable {disk : Disk} {name text : List UInt8} {r : SaveResults}

lemma saveOpened_done :
    (saveOpened disk name text r).1 = true ↔ MovesAll r.writes text.length :=
  (saveLoop_done text.length 0 (by simp) (by omega)).1

lemma saveOpened_stored (hd : (saveOpened disk name text r).1 = true) (hc : r.closed = 0) :
    (saveOpened disk name text r).2 name = some text := by
  have hl : text.length ≤ (saveLoop text.length r.writes text.length 0 0).2 :=
    (saveLoop_done text.length 0 (by simp) (by omega)).2 hd
  unfold saveOpened
  dsimp only
  rw [Function.update_self, if_pos hc, take_of_length_le hl]

lemma saveFile_done : (saveFile disk name text r).1 = true ↔
    r.Opens ∧ MovesAll r.writes text.length := by
  unfold saveFile SaveResults.Opens
  split_ifs with ho hc hr
  · simp only [false_iff]
    rintro ⟨h | h, _⟩
    · omega
    · exact hc h.1
  · simp only [false_iff]
    rintro ⟨h | h, _⟩ <;> omega
  · rw [saveOpened_done]
    exact (and_iff_right (.inr ⟨not_not.1 hc, not_lt.1 hr⟩)).symm
  · rw [saveOpened_done]
    exact (and_iff_right (.inl (not_lt.1 ho))).symm

lemma saveFile_stored (hd : (saveFile disk name text r).1 = true) (hc : r.closed = 0) :
    (saveFile disk name text r).2 name = some text := by
  unfold saveFile at hd ⊢
  split_ifs at hd ⊢
  · exact saveOpened_stored hd hc
  · exact saveOpened_stored hd hc

lemma saveFile_refused (ho : r.opened < 0) (hc : r.created ≠ 0) :
    (saveFile disk name text r).2 = disk := by
  unfold saveFile
  rw [if_pos ho, if_pos hc]

end Transfers

section Saved

variable {s : EditorSys}

structure EditorOk (s : EditorSys) : Prop where
  logOk : s.ed.LogOk
  saved : SavedWork s

lemma EditorSys.OnDisk.congr {t : EditorSys} (h : s.OnDisk) (hn : t.ed.filename = s.ed.filename)
    (hd : t.ed.buf.data = s.ed.buf.data) (hdi : t.disk = s.disk) : t.OnDisk := by
  unfold OnDisk at h ⊢
  rwa [hn, hd, hdi]

lemma EditorOk.tracks {ed : Editor} (h : EditorOk s) (hr : s.ed.quitting = false)
    (ht : Tracks s.ed ed) : EditorOk { s with ed := ed } := by
  refine ⟨ht.logOk h.logOk, fun hc => ?_, fun hq _ => ?_⟩
  · rcases ht.text with hd | ⟨hda, hd⟩
    · exact absurd hc (by simp [hd])
    · exact (h.saved.clean (hd ▸ hc)).congr ht.filename hda rfl
  · exact absurd hq (by simp [ht.quitting, hr])

lemma EditorOk.write {cmd : List UInt8} {r : SaveResults} (h : EditorOk s)
    (hr : s.ed.quitting = false) (hw : cmd[0]? = some (ascii 'w'))
    (hl : ¬ WriteLies s.ed cmd r) : EditorOk (commandLine s cmd r) := by
  unfold WriteLies at hl
  unfold commandLine
  dsimp only at hl ⊢
  generalize (nameGiven cmd).getD s.ed.filename = name at hl ⊢
  split_ifs with hn hd
  · refine ⟨h.logOk, fun hc => ?_, fun hq => absurd hq (by simp [hr])⟩
    have hsame : name = s.ed.filename := by
      by_contra hne
      exact hl (.inl ⟨hn, hc, hne⟩)
    exact (h.saved.clean hc).congr hsame rfl rfl
  · have hcl : r.closed = 0 := by
      by_contra hne
      exact hl (.inr (.inl ⟨hn, saveFile_done.1 hd, hne⟩))
    have hdi : ((saveFile s.disk name s.ed.buf.data r).2 name).getD [] = s.ed.buf.data := by
      rw [saveFile_stored hd hcl, Option.getD_some]
    exact ⟨h.logOk, fun _ => by simpa [OnDisk, hn] using hdi,
      fun _ _ => by simpa [OnDisk, hn] using hdi⟩
  · refine ⟨h.logOk, fun hc => ?_, fun hq => absurd hq (by simp [hr])⟩
    have hno : ¬ (name ≠ s.ed.filename ∨ 0 ≤ r.opened ∨ r.created = 0) := fun hle =>
      hl (.inr (.inr ⟨hn, fun ht => hd (saveFile_done.2 ht), hc, hle⟩))
    simp only [not_or, not_not, not_le] at hno
    obtain ⟨hsame, ho, hcr⟩ := hno
    exact (h.saved.clean hc).congr hsame rfl (saveFile_refused ho hcr)

lemma EditorOk.command {cmd : List UInt8} {r : SaveResults} (h : EditorOk s)
    (hr : s.ed.quitting = false)
    (hl : cmd[0]? = some (ascii 'w') → ¬ WriteLies s.ed cmd r) :
    EditorOk (commandLine s cmd r) := by
  by_cases hw : cmd[0]? = some (ascii 'w')
  · exact h.write hr hw (hl hw)
  unfold commandLine
  split_ifs with _ hdi _ _
  · exact h
  · have hd := h.saved.clean (by simpa using hdi)
    exact ⟨h.logOk, fun _ => hd, fun _ _ => hd⟩
  · exact ⟨h.logOk, h.saved.clean, fun _ hf => absurd hf (by simp)⟩
  · exact h.tracks hr (.of_same rfl rfl rfl rfl rfl)
  · exact h

lemma editorStep_ok {step : EditorStep} (h : EditorOk s) (hl : ¬ SaveLies s step) :
    EditorOk (editorStep s step) := by
  unfold editorStep
  by_cases hq : s.ed.quitting = true ∨ step.key = kNone
  · rw [if_pos hq]
    exact h
  rw [if_neg hq]
  have hr : s.ed.quitting = false := by simpa using (not_or.1 hq).1
  have hp : ∀ p, EditorOk { s with ed := { s.ed with prompt := p } } :=
    fun _ => h.tracks hr (.of_same rfl rfl rfl rfl rfl)
  split
  · rename_i lead line hli
    unfold promptKey
    split_ifs with _ he
    · exact hp none
    · cases lead with
      | colon =>
        exact (hp none).command hr fun hw hwr =>
          hl ⟨hr, he, line, hli, hw, hwr⟩
      | slash => exact (hp none).tracks hr (tracks_searchLine _ line)
    · exact hp _
    · exact hp _
    · exact h
  · split_ifs
    · exact h.tracks hr (tracks_insertKey s.ed step.key)
    · exact h.tracks hr (tracks_normalKey s.ed step.key h.logOk)

lemma startEditor_ok {args : List UInt8} {disk : Disk} {r : LoadResults} {log : Bool}
    (hload : args ≠ [] → LoadsWhole ((disk (args.take 63)).getD []) r) :
    EditorOk (startEditor args disk r log) := by
  have hd : (startEditor args disk r log).OnDisk := by
    unfold OnDisk startEditor
    by_cases ha : args = []
    · simp [ha]
    · simp [ha, loadFile_whole (hload ha)]
  refine ⟨fun u hu => ?_, fun _ => hd, fun _ _ => hd⟩
  cases log with
  | false => simp [startEditor] at hu
  | true =>
    obtain rfl : _ = u := by simpa [startEditor] using hu
    simp [Nonneg]

/-- After a load of the whole file, and with no save that lies, a clean buffer is on the disk, and
`:q` and `:wq` leave the editor only then. -/
theorem editorRun_saved (args : List UInt8) (disk : Disk) (r : LoadResults) (log : Bool)
    (steps : List EditorStep)
    (hload : args ≠ [] → LoadsWhole ((disk (args.take 63)).getD []) r)
    (hsteps : StepsMeet editorStep (fun s step => ¬ SaveLies s step)
      (startEditor args disk r log) steps) :
    SavedWork (editorRun (startEditor args disk r log) steps) := by
  have hstep : ∀ s step, EditorOk s → ¬ SaveLies s step → EditorOk (editorStep s step) :=
    fun s step h hlies => editorStep_ok h hlies
  exact (foldl_induction hstep steps (startEditor_ok hload) hsteps).saved

def sampleResults (closed : ℤ) : SaveResults :=
  ⟨3, 0, 3, fun _ => 1, closed, some [ascii 'a']⟩

def sampleKeys (keys : List ℕ) (closed : ℤ) : List EditorStep :=
  keys.map fun k => ⟨k, sampleResults closed⟩

def sampleDisk : Disk :=
  fun name => if name = asciiText "f" then some [ascii 'a'] else none

def sampleStart : EditorSys :=
  startEditor (asciiText "f") sampleDisk ⟨3, fun i => if i = 0 then 1 else 0⟩ true

lemma sampleStart_loads :
    LoadsWhole ((sampleDisk ((asciiText "f").take 63)).getD [])
      ⟨3, fun i => if i = 0 then 1 else 0⟩ := by
  refine ⟨by decide, fun i hp hi => ?_⟩
  rcases i with _ | i
  · simp at hi
  · exact moved_mono (fun i => if i = 0 then 1 else 0) (Nat.succ_le_succ (Nat.zero_le i))

/-- A line is opened above the text and saved. -/
theorem editorRun_saved_sample :
    SavedWork (editorRun sampleStart
      (sampleKeys ['O'.toNat, kEsc, ':'.toNat, 'w'.toNat, kEnter] 0)) := by
  refine editorRun_saved _ _ _ _ _ (fun _ => sampleStart_loads) ?_
  have hkey : ∀ (s : EditorSys) (step : EditorStep), step.key ≠ kEnter → step.key ≠ kReturn →
      ¬ SaveLies s step := fun s step h h' hlies => hlies.2.1.elim h h'
  refine ⟨hkey _ _ (by decide) (by decide), hkey _ _ (by decide) (by decide),
    hkey _ _ (by decide) (by decide), hkey _ _ (by decide) (by decide), ?_, trivial⟩
  rintro ⟨-, -, cmd, -, -, h | h | h⟩
  · exact absurd h.2.1 (by decide +kernel)
  · exact h.2.2 rfl
  · exact absurd h.2.2.1 (by decide +kernel)

/-- The close fails and the file is what it was, but the buffer counts as saved and `:q` leaves. -/
theorem editorRun_close_ignored :
    ¬ SavedWork (editorRun sampleStart
      (sampleKeys ['O'.toNat, kEsc, ':'.toNat, 'w'.toNat, kEnter, ':'.toNat, 'q'.toNat, kEnter]
        (-5))) :=
  fun h => absurd (h.quit (by decide +kernel) (by decide +kernel)) (by decide +kernel)

end Saved

end EsdumanOS
