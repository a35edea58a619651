import EsdumanOS.Proofs.Tape

/-!
# The line on the screen

Prompt and line are a tape that starts in the row of the prompt. `line_cell` is where the cursor is
on it, so a move is the same for shell and terminal (`cursorToCell_moves`). Every key is a move, a
redraw, or both.
-/

namespace EsdumanOS

open Lib List Function LineEd Term

variable {c : UInt8}

section Moves

variable {t : Term} {row cur last : ℕ} {cells : ℕ → ℕ} {s : LineEd}

lemma ansiMove_pos {n : ℕ} (hn : 0 < n) (dir : Char) : ansiMove n dir = csiSequence n dir := by
  rw [ansiMove, if_neg (by omega), Int.toNat_natCast]
  rfl

lemma OnTape.column (h : OnTape t row cells cur last) (d : Bool) {cell : ℕ}
    (hr : cell / 80 = cur / 80) :
    OnTape (printOn d t (ansiMove shellCols 'D' ++ ansiMove (cell % shellCols : ℕ) 'C')) row cells
      cell last := by
  have hh := h.home d
  have hb : ansiMove shellCols 'D' = csiSequence 80 'D' := ansiMove_pos (by decide) 'D'
  rw [printOn_append, hb, shellCols]
  rcases Nat.eq_zero_or_pos (cell % 80) with hz | hp
  · have hc : cur - cur % 80 = cell := by omega
    have hn : ansiMove (0 : ℕ) 'C' = [] := rfl
    rw [hc] at hh
    rw [hz, hn, printOn_nil]
    exact hh
  · have hf := hh.forward d hp (by omega)
    have hc : cur - cur % 80 + cell % 80 = cell := by omega
    rw [hc] at hf
    rw [ansiMove_pos hp]
    exact hf

lemma cursorToCell_moves (h : OnTape t row cells s.lineCell last) (d : Bool) {cell : ℕ}
    (hle : cell / 80 ≤ last) :
    OnTape (printOn d t (s.cursorToCell cell).1) row cells cell last := by
  unfold cursorToCell
  dsimp only
  rw [append_assoc, printOn_append]
  rcases Nat.lt_trichotomy (cell / 80) (s.lineCell / 80) with hlt | heq | hgt
  · have hr : ((cell / shellCols : ℕ) : ℤ) - (s.lineCell / shellCols : ℕ) =
        -((s.lineCell / 80 - cell / 80 : ℕ) : ℤ) := by
      rw [shellCols]
      omega
    rw [hr, if_pos (by omega), neg_neg, ansiMove_pos (by omega)]
    exact (h.up d (by omega) (by omega)).column d (by omega)
  · have hr : ((cell / shellCols : ℕ) : ℤ) - (s.lineCell / shellCols : ℕ) = 0 := by
      rw [shellCols]
      omega
    rw [hr, if_neg (by omega), if_neg (by omega), printOn_nil]
    exact h.column d heq
  · have hr : ((cell / shellCols : ℕ) : ℤ) - (s.lineCell / shellCols : ℕ) =
        ((cell / 80 - s.lineCell / 80 : ℕ) : ℤ) := by
      rw [shellCols]
      omega
    rw [hr, if_neg (by omega), if_pos (by omega), ansiMove_pos (by omega)]
    exact (h.down d (by omega) (by omega)).column d (by omega)

end Moves

section Redraw

def tapeOf (text : List UInt8) (n : ℕ) : ℕ := (text[n]?.map UInt8.toNat).getD 32

lemma tapeOf_rewritten {text : List UInt8} {cells : ℕ → ℕ} {k : ℕ}
    (hc : ∀ n < k, cells n = tapeOf text n) :
    (fun n => if text.length ≤ n then 32 else writeTape cells k (text.drop k) n) = tapeOf text := by
  funext n
  split_ifs with hn
  · simp [tapeOf, hn]
  · rw [writeTape_apply]
    split_ifs with hk
    · rw [getElem?_drop, show k + (n - k) = n by omega, tapeOf, getElem?_eq_getElem (by omega)]
      rfl
    · exact hc n (by omega)

lemma eraseBelow_eq : eraseBelow = csiSequence 0 'J' := rfl

variable {t : Term} {row last : ℕ} {cells : ℕ → ℕ}

lemma OnTape.redraw {k : ℕ} (h : OnTape t row cells k last) (s : LineEd) (text : List UInt8)
    (cell : ℕ) (d : Bool) (hk : k ≤ text.length) (hce : ∀ n < k, cells n = tapeOf text n)
    (hf : ∀ c ∈ text, FillsCell c) (hfi : text.length < 1920) (hcl : cell ≤ text.length)
    (hs : s.lineCell = text.length) : ∃ row' last', text.length / 80 ≤ last' ∧
      OnTape (printOn d t (text.drop k ++ eraseBelow ++ (s.cursorToCell cell).1)) row' (tapeOf text)
        cell last' := by
  have hle : k + (text.drop k).length = text.length := by
    rw [length_drop]
    omega
  obtain ⟨row', last', hp⟩ := OnTape.print d (text.drop k) h
    (fun c hc => hf c (mem_of_mem_drop hc)) (by omega)
  rw [hle] at hp
  have he := hp.erase d
  rw [tapeOf_rewritten hce] at he
  rw [printOn_append, printOn_append, eraseBelow_eq]
  have hl := hp.le_last
  refine ⟨row', last', hl, cursorToCell_moves ?_ d (by omega)⟩
  rw [hs]
  exact he

end Redraw

def LineEd.text (s : LineEd) : List UInt8 := s.prompt.text ++ s.line

structure EdOk (s : LineEd) : Prop where
  width : s.promptW = s.prompt.text.length
  pos : s.pos ≤ s.line.length
  prompt : ∀ c ∈ s.prompt.text, FillsCell c
  line : TypedLine s.line
  history : ∀ l ∈ s.history, TypedLine l
  saved : TypedLine s.histSaved

/-- The text is on the tape, its end is on the screen, and the cursor is where the shell has it. -/
structure LineOk (s : LineSys) : Prop where
  ed : EdOk s.ed
  cell : s.ed.lineCell = s.ed.promptW + s.ed.pos
  tape : ∃ row last, s.ed.text.length / 80 ≤ last ∧
    OnTape s.term row (tapeOf s.ed.text) (s.ed.promptW + s.ed.pos) last

lemma typed_fillsCell (h : 32 ≤ c ∧ c ≤ 126) : FillsCell c := by
  refine ⟨?_, ?_, ?_⟩ <;> rintro rfl <;> exact absurd h.1 (by decide)

lemma EdOk.fills {s : LineEd} (h : EdOk s) : ∀ c ∈ s.text, FillsCell c := fun c hc =>
  (mem_append.1 hc).elim (h.prompt c) fun hc => typed_fillsCell (h.line.2 c hc)

lemma LineOk.shown {s : LineSys} (h : LineOk s) : ∃ row, LineShown s row := by
  obtain ⟨row, last, hle, ht⟩ := h.tape
  have hw := h.ed.width
  have hv := ht.view
  have hs := ht.shown
  have hc := ht.le_last
  have hr : termRows = 24 := rfl
  refine ⟨row, hw, ht.top, ht.cursorX, ht.cursorY, ?_, fun n hn => ?_, fun n hn hro => ?_⟩
  · rw [ht.cursorY, hr]
    omega
  · have hn' : n < s.ed.text.length := hn
    refine ⟨by omega, ?_⟩
    rw [ht.holds n (by omega), tapeOf, getElem?_eq_getElem hn']
    rfl
  · rw [ht.holds n (by omega), tapeOf, text, getElem?_eq_none hn]
    rfl

lemma TypedLine.nil : TypedLine [] := ⟨by simp, by simp⟩

lemma TypedLine.sublist {l l' : List UInt8} (h : TypedLine l) (hs : l'.Sublist l) :
    TypedLine l' :=
  ⟨hs.length_le.trans h.1, fun c hc => h.2 c (hs.subset hc)⟩

lemma TypedLine.insert {l : List UInt8} {i : ℕ} (h : TypedLine l)
    (hc : 32 ≤ c ∧ c ≤ 126) (hl : l.length < 254) (hi : i ≤ l.length) :
    TypedLine (l.insertIdx i c) := by
  refine ⟨by rw [length_insertIdx_of_le_length hi]; omega, fun b hb => ?_⟩
  rcases (mem_insertIdx hi).1 hb with rfl | hb
  · exact hc
  · exact h.2 b hb

section Keys

variable {s : LineSys} {e : LineEd} {t : Term} {row last : ℕ} {cells : ℕ → ℕ}

lemma LineOk.move (h : LineOk s) (d : Bool) {p : ℕ} (hp : p ≤ s.ed.line.length) :
    LineOk ⟨({ s.ed with pos := p }.cursorToCell (s.ed.promptW + p)).2,
      printOn d s.term ({ s.ed with pos := p }.cursorToCell (s.ed.promptW + p)).1⟩ := by
  obtain ⟨row, last, hl, ht⟩ := h.tape
  have hw := h.ed.width
  refine ⟨⟨hw, hp, h.ed.prompt, h.ed.line, h.ed.history, h.ed.saved⟩, rfl, row, last, hl, ?_⟩
  refine cursorToCell_moves (s := { s.ed with pos := p }) ?_ d ?_
  · rw [h.cell]
    exact ht
  · rw [text, length_append] at hl
    omega

lemma redrawTail_ok (he : EdOk e) (d : Bool) (hf : e.Fits)
    (h : OnTape t row cells (e.promptW + e.pos) last)
    (hc : ∀ n < e.promptW + e.pos, cells n = tapeOf e.text n) :
    LineOk ⟨e.lineRedrawTail.2, printOn d t e.lineRedrawTail.1⟩ := by
  have hw := he.width
  have hp := he.pos
  have hle : e.text.length = e.promptW + e.line.length := by rw [text, length_append, hw]
  have hd : e.text.drop (e.promptW + e.pos) = e.line.drop e.pos := by
    rw [text, hw, ← drop_drop, drop_left]
  have hlt : e.text.length < 1920 := by
    rw [text, length_append]
    exact hf
  obtain ⟨row', last', hl, ht⟩ := h.redraw
    { e with lineCell := e.promptW + e.line.length } e.text (e.promptW + e.pos) d (by omega) hc
    he.fills hlt (by omega) hle.symm
  rw [hd] at ht
  exact ⟨⟨hw, hp, he.prompt, he.line, he.history, he.saved⟩, rfl, row', last', hl, ht⟩

lemma refresh_ok (he : EdOk e) (d : Bool) (hf : e.Fits) (h : OnTape t row cells e.lineCell last) :
    LineOk ⟨e.lineRefresh.2, printOn d t e.lineRefresh.1⟩ := by
  have hp := he.pos
  have hh : OnTape (printOn d t (e.cursorToCell 0).1) row cells 0 last :=
    cursorToCell_moves h d (by omega)
  have hlt : e.text.length < 1920 := by
    rw [text, length_append]
    exact hf
  have hle : e.text.length = e.prompt.text.length + e.line.length := by rw [text, length_append]
  obtain ⟨row', last', hl, ht⟩ := hh.redraw
    { (e.cursorToCell 0).2.printPrompt.2 with lineCell := e.prompt.text.length + e.line.length }
    e.text (e.prompt.text.length + e.pos) d (by omega) (by simp) he.fills hlt (by omega) hle.symm
  rw [← printOn_append, drop_zero] at ht
  refine ⟨⟨rfl, hp, he.prompt, he.line, he.history, he.saved⟩, rfl, row', last', hl, ?_⟩
  rw [text, ← append_assoc, ← append_assoc, ← append_assoc] at ht
  exact ht

lemma showHistory_ok (he : EdOk e) (d : Bool) (hf : e.showHistory.2.Fits)
    (h : OnTape t row cells e.lineCell last) :
    LineOk ⟨e.showHistory.2, printOn d t e.showHistory.1⟩ := by
  have ht : TypedLine
      (if e.histView = 0 then e.histSaved else (e.historyAt e.histView).getD []) := by
    split_ifs
    · exact he.saved
    · rcases hl : e.historyAt e.histView with _ | line
      · exact .nil
      · refine he.history line ?_
        unfold historyAt at hl
        split_ifs at hl
        exact mem_of_getElem? hl
  unfold showHistory at hf ⊢
  generalize (if e.histView = 0 then e.histSaved else (e.historyAt e.histView).getD []) = line
    at ht hf ⊢
  have hed : EdOk { e with line := line.take 254, pos := (line.take 254).length } :=
    ⟨he.width, le_rfl, he.prompt, ht.sublist (take_sublist _ _), he.history, he.saved⟩
  exact refresh_ok hed d hf h

lemma tapeOf_congr {p l l' : List UInt8} {k : ℕ} (h : ∀ i < k, l[i]? = l'[i]?) :
    ∀ n < p.length + k, tapeOf (p ++ l) n = tapeOf (p ++ l') n := by
  intro n hn
  unfold tapeOf
  rcases Nat.lt_or_ge n p.length with hp | hp
  · rw [getElem?_append_left hp, getElem?_append_left hp]
  · rw [getElem?_append_right hp, getElem?_append_right hp, h _ (by omega)]

lemma LineOk.ignored (h : LineOk s) (d : Bool) : LineOk ⟨s.ed, printOn d s.term []⟩ := h

lemma EdOk.edited (h : EdOk e) {l : List UInt8} {p : ℕ} (n : ℕ) (hl : TypedLine l)
    (hp : p ≤ l.length) : EdOk { e with line := l, pos := p, lineCell := n } :=
  ⟨h.width, hp, h.prompt, hl, h.history, h.saved⟩

lemma LineOk.erased (h : LineOk s) (d : Bool) {p n : ℕ} (hp : p < s.ed.line.length)
    (ht : OnTape t row (tapeOf s.ed.text) (s.ed.promptW + p) last)
    (he : e = { s.ed with line := s.ed.line.eraseIdx p, pos := p, lineCell := n }) (hf : e.Fits) :
    LineOk ⟨e.lineRedrawTail.2, printOn d t e.lineRedrawTail.1⟩ := by
  subst he
  have hed := h.ed.edited n (h.ed.line.sublist (eraseIdx_sublist s.ed.line p))
    (by rw [length_eraseIdx_of_lt hp]; omega : p ≤ (s.ed.line.eraseIdx p).length)
  refine redrawTail_ok hed d hf ht ?_
  rw [h.ed.width]
  exact tapeOf_congr fun i hi => (getElem?_eraseIdx_of_lt hi).symm

lemma LineOk.typed (h : LineOk s) (d : Bool) {n : ℕ} (hc : 32 ≤ c ∧ c ≤ 126)
    (hr : s.ed.line.length < 254)
    (he : e = { s.ed with
      line := s.ed.line.insertIdx s.ed.pos c, pos := s.ed.pos + 1, lineCell := n })
    (hf : e.Fits) :
    LineOk ⟨e.lineRedrawTail.2, printOn d s.term (c :: e.lineRedrawTail.1)⟩ := by
  subst he
  have hw := h.ed.width
  have hp := h.ed.pos
  have hin : (s.ed.line.insertIdx s.ed.pos c).length = s.ed.line.length + 1 :=
    length_insertIdx_of_le_length hp c
  have hle : s.ed.prompt.text.length + (s.ed.line.insertIdx s.ed.pos c).length < 1920 := hf
  have hed := h.ed.edited n (h.ed.line.insert hc hr hp) (by omega :
    s.ed.pos + 1 ≤ (s.ed.line.insertIdx s.ed.pos c).length)
  obtain ⟨row, last, hl, ht⟩ := h.tape
  obtain ⟨row', hpu⟩ := ht.put (typed_fillsCell hc) d (by omega)
  refine redrawTail_ok hed d hf hpu fun n hn => ?_
  dsimp only at hn ⊢
  rcases Nat.lt_or_ge n (s.ed.promptW + s.ed.pos) with hlt | hge
  · rw [update_of_ne hlt.ne]
    exact tapeOf_congr (fun i hi => (getElem?_insertIdx_of_lt hi).symm) n (hw ▸ hlt)
  · obtain rfl : n = s.ed.promptW + s.ed.pos := by omega
    have ha : (s.ed.prompt.text ++ s.ed.line.insertIdx s.ed.pos c)[s.ed.promptW + s.ed.pos]? =
        some c := by
      rw [hw, getElem?_append_right (by omega), Nat.add_sub_cancel_left, getElem?_insertIdx_self,
        if_pos hp]
    rw [update_self, tapeOf, text, ha]
    rfl

lemma EdOk.walked (h : EdOk e) {saved : List UInt8} (view : ℕ) (hs : TypedLine saved) :
    EdOk { e with histSaved := saved, histView := view } :=
  ⟨h.width, h.pos, h.prompt, h.line, h.history, hs⟩

/-- Every key leaves on the screen what is in the line. -/
lemma lineStep_ok (d : Bool) (k : LineKey) (h : LineOk s) (hf : (s.ed.key k).2.Fits) :
    LineOk (lineStep d s k) := by
  obtain ⟨row, last, hl, ht⟩ := h.tape
  have hp := h.ed.pos
  have hle : s.ed.text.length = s.ed.promptW + s.ed.line.length := by
    rw [text, length_append, h.ed.width]
  have hce : OnTape s.term row (tapeOf s.ed.text) s.ed.lineCell last := by
    rw [h.cell]
    exact ht
  unfold lineStep
  cases k with
  | left =>
    rw [key]
    split_ifs
    · exact h.move d (by omega)
    · exact h.ignored d
  | right =>
    rw [key]
    split_ifs
    · exact h.move d (by omega)
    · exact h.ignored d
  | home =>
    have hm := h.move d (Nat.zero_le s.ed.line.length)
    rw [Nat.add_zero] at hm
    exact hm
  | last => exact h.move d le_rfl
  | delete =>
    rw [key] at hf ⊢
    split_ifs at hf ⊢ with hlt
    · exact h.erased d hlt ht rfl hf
    · exact h.ignored d
  | backspace =>
    rw [key] at hf ⊢
    split_ifs at hf ⊢ with hlt
    · dsimp only at hf ⊢
      rw [printOn_append]
      exact h.erased d (by omega) (cursorToCell_moves hce d (by omega)) rfl hf
    · exact h.ignored d
  | up =>
    rw [key] at hf ⊢
    by_cases hmo : s.ed.histView < s.ed.history.length
    · rw [if_pos hmo] at hf ⊢
      have hs : TypedLine (if s.ed.histView = 0 then s.ed.line.take 254 else s.ed.histSaved) := by
        split_ifs
        · exact h.ed.line.sublist (take_sublist _ _)
        · exact h.ed.saved
      exact showHistory_ok (h.ed.walked _ hs) d hf hce
    · rw [if_neg hmo]
      exact h.ignored d
  | down =>
    rw [key] at hf ⊢
    split_ifs at hf ⊢
    · exact showHistory_ok (h.ed.walked (s.ed.histView - 1) h.ed.saved) d hf hce
    · exact h.ignored d
  | char c =>
    rw [key] at hf ⊢
    split_ifs at hf ⊢ with hc
    · exact h.typed d ⟨hc.1, hc.2.1⟩ hc.2.2 rfl hf
    · exact h.ignored d

end Keys

lemma Prompt.text_ne_nil (p : Prompt) : p.text ≠ [] := by
  simp [Prompt.text, asciiText]

lemma startLine_ok (d : Bool) {prompt : Prompt} {history : List (List UInt8)} {t : Term}
    (hs : t.AtColumnZero) (hb : t.BlankBelow) (hp : ∀ c ∈ prompt.text, FillsCell c)
    (hh : ∀ l ∈ history, TypedLine l) (hf : prompt.text.length < 1920) :
    LineOk (startLine d prompt history t) := by
  refine ⟨⟨rfl, Nat.zero_le _, hp, .nil, hh, .nil⟩, rfl, ?_⟩
  change ∃ row last, (prompt.text ++ []).length / 80 ≤ last ∧
    OnTape (printOn d t prompt.text) row (tapeOf (prompt.text ++ [])) (prompt.text.length + 0) last
  rw [append_nil, Nat.add_zero]
  obtain ⟨c, text, hte⟩ := exists_cons_of_ne_nil prompt.text_ne_nil
  rw [hte] at hp hf ⊢
  obtain ⟨row, hfi⟩ := OnTape.first d (hp c mem_cons_self) hs hb
  rw [length_cons] at hf
  obtain ⟨row', last, ht⟩ := OnTape.print d text hfi
    (fun c hc => hp c (mem_cons_of_mem _ hc)) (by omega)
  rw [show 1 + text.length = (c :: text).length by rw [length_cons]; omega] at ht
  refine ⟨row', last, ht.le_last, ?_⟩
  have hce : writeTape (update (fun _ => 32) 0 c.toNat) 1 text = tapeOf (c :: text) := by
    funext n
    rw [writeTape_apply]
    cases n with
    | zero => simp [tapeOf]
    | succ n => simp [tapeOf]
  rw [hce] at ht
  exact ht

/-- On a screen blank from the prompt on, with a prompt whose bytes each fill a cell: after any keys
the terminal shows the prompt and the line, the cursor where the shell has it. -/
theorem lineRun_shown (d : Bool) (prompt : Prompt) (history : List (List UInt8)) (t : Term)
    (keys : List LineKey) (hstart : t.AtColumnZero) (hblank : t.BlankBelow)
    (hprompt : ∀ c ∈ prompt.text, FillsCell c) (hhist : ∀ l ∈ history, TypedLine l)
    (hfits : (startLine d prompt history t).ed.Fits)
    (hkeys : StepsMeet (lineStep d) (fun s k => (s.ed.key k).2.Fits) (startLine d prompt history t)
      keys) :
    ∃ row, LineShown (lineRun d (startLine d prompt history t) keys) row := by
  have hstep : ∀ s k, LineOk s → (s.ed.key k).2.Fits → LineOk (lineStep d s k) :=
    fun s k h hfit => lineStep_ok d k h hfit
  have hstart' := startLine_ok d hstart hblank hprompt hhist hfits
  exact (foldl_induction hstep keys hstart' hkeys).shown

def samplePrompt (path : String) : Prompt := ⟨asciiText "ed", asciiText "os", asciiText path, false⟩

def sampleLineKeys : List LineKey :=
  [.char (ascii 'l'), .char (ascii 'x'), .char (ascii 's'), .left, .backspace, .last, .up, .home,
    .delete, .right]

theorem lineRun_shown_sample : ∃ row, LineShown (lineRun true
    (startLine true (samplePrompt "/") [asciiText "pwd"] init) sampleLineKeys) row :=
  lineRun_shown true (samplePrompt "/") [asciiText "pwd"] init sampleLineKeys
    ⟨rfl, rfl, by decide, by decide⟩
    (fun _ _ _ _ _ => vgaEntry_char (by decide) _) (by decide +kernel)
    (by decide +kernel) (by decide +kernel) (by decide +kernel)

def fullTerm : Term := { init with buffer := fun _ _ => vgaEntry 122 7 }

/-- What stands below the cursor stays until a redraw, and a newline in the prompt counts as a
cell. -/
theorem lineRun_not_shown :
    (fullTerm.AtColumnZero ∧ ¬ ∃ row, LineShown (lineRun true
      (startLine true (samplePrompt "/") [] fullTerm) [.left]) row) ∧
    (init.AtColumnZero ∧ init.BlankBelow ∧ ¬ ∃ row, LineShown (lineRun true
      (startLine true (samplePrompt "/a\nb") [] init) [.left]) row) := by
  refine ⟨⟨⟨rfl, rfl, by decide, by decide⟩, ?_⟩, ⟨rfl, rfl, by decide, by decide⟩,
    fun _ _ _ _ _ => vgaEntry_char (by decide) _, ?_⟩
  · rintro ⟨row, h⟩
    have hcursor :
        (lineRun true (startLine true (samplePrompt "/") [] fullTerm) [.left]).term.cursorY =
        0 := by decide +kernel
    have hrow := h.cursorY
    obtain rfl : row = 0 := by omega
    exact absurd (h.blank 79 (by decide +kernel) (by decide +kernel)) (by decide +kernel)
  · rintro ⟨row, h⟩
    exact absurd h.cursorX (by decide +kernel)

end EsdumanOS
