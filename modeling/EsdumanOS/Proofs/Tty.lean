import EsdumanOS.Tty

/-!
# The terminal stays in its buffer

Drawing changes cells of the buffer and nothing else (`Draws`). A byte keeps cursor, view, region
and parameters in range unless it completes a cursor-up sequence for which `top + n` wraps: the
cursor then goes down, and out of the buffer.
-/

namespace EsdumanOS

open Lib List Term

variable {t t' t'' : Term}

structure Draws (t t' : Term) : Prop where
  same : t' = { t with buffer := t'.buffer, cells := t'.cells }
  cells : ∀ c ∈ t'.cells, c ∈ t.cells ∨ (c.1 < maxScroll ∧ c.2 < vgaWidth)

lemma Draws.refl (t : Term) : Draws t t := ⟨rfl, fun _ => .inl⟩

lemma Draws.trans (h : Draws t t') (h' : Draws t' t'') : Draws t t'' := by
  refine ⟨?_, fun c hc => ?_⟩
  · rw [h'.same, h.same]
  · rcases h'.cells c hc with hc | hc
    · exact h.cells c hc
    · exact .inr hc

lemma Draws.viewOffset (h : Draws t t') : t'.viewOffset = t.viewOffset := by
  rw [h.same]

lemma put_draws {y x : ℕ} (v : ℕ) (hy : y < maxScroll) (hx : x < vgaWidth) :
    Draws t (t.put y x v) := by
  refine ⟨rfl, fun c hc => ?_⟩
  rcases mem_cons.1 hc with rfl | hc
  · exact .inr ⟨hy, hx⟩
  · exact .inl hc

lemma look_draws {y x : ℕ} (hy : y < maxScroll) (hx : x < vgaWidth) : Draws t (t.look y x) := by
  refine ⟨rfl, fun c hc => ?_⟩
  rcases mem_cons.1 hc with rfl | hc
  · exact .inr ⟨hy, hx⟩
  · exact .inl hc

lemma foldl_draws {f : Term → ℕ → Term} {is : List ℕ}
    (h : ∀ u, ∀ i ∈ is, Draws t u → Draws u (f u i)) : Draws t (is.foldl f t) :=
  foldl_invariant_mem is (fun u i hi hu => hu.trans (h u i hi hu)) (.refl t)

lemma copyRow_draws {y src : ℕ} (hy : y < maxScroll) (hs : src < maxScroll) :
    Draws t (t.copyRow y src) := by
  refine foldl_draws fun u x hx _ => ?_
  rw [mem_range] at hx
  exact (look_draws hs hx).trans (put_draws _ hy hx)

lemma clearRow_draws {y : ℕ} (x0 x1 : ℕ) (hy : y < maxScroll) : Draws t (t.clearRow y x0 x1) := by
  refine foldl_draws fun u x hx _ => put_draws _ hy ?_
  obtain ⟨hge, hlt⟩ := mem_range'_1.1 hx
  omega

lemma clearSpan_draws (fromY fromX toY toX : ℕ) : Draws t (t.clearSpan fromY fromX toY toX) := by
  refine foldl_draws fun u y hy _ => clearRow_draws _ _ ?_
  obtain ⟨hge, hlt⟩ := mem_range'_1.1 hy
  omega

lemma updateScreen_draws (h : t.viewOffset ≤ 76) : Draws t t.updateScreen := by
  refine foldl_draws fun u y hy hu => foldl_draws fun w x hx hw => look_draws ?_ (mem_range.1 hx)
  have hy' : y < 24 := mem_range.1 hy
  rw [hw.viewOffset, hu.viewOffset, maxScroll]
  omega

lemma refresh_draws (deferred : Bool) (h : t.viewOffset ≤ 76) : Draws t (t.refresh deferred) := by
  unfold refresh
  split
  · exact .refl t
  · exact updateScreen_draws h

lemma rowToBuffer_le (h : t.viewOffset ≤ 76) (row : ℕ) : t.rowToBuffer row < maxScroll := by
  simp only [rowToBuffer, termRows, vgaHeight, maxScroll, u32]
  split_ifs <;> omega

lemma insertLines_draws (h : t.viewOffset ≤ 76) (n : ℕ) : Draws t (t.insertLines n) := by
  have hb : t.regionBottom < maxScroll := rowToBuffer_le h _
  unfold insertLines
  dsimp only
  split_ifs
  · exact .refl t
  · refine (foldl_draws fun u y hy _ => ?_).trans (clearSpan_draws _ _ _ _)
    obtain ⟨hge, hlt⟩ := mem_range'_1.1 (mem_reverse.1 hy)
    have hy' : y < maxScroll := by omega
    exact copyRow_draws hy' (by omega)

lemma deleteLines_draws (h : t.viewOffset ≤ 76) (n : ℕ) : Draws t (t.deleteLines n) := by
  have hb : t.regionBottom < maxScroll := rowToBuffer_le h _
  unfold deleteLines
  dsimp only
  split_ifs
  · exact .refl t
  · refine (foldl_draws fun u y hy _ => ?_).trans (clearSpan_draws _ _ _ _)
    obtain ⟨hge, hlt⟩ := mem_range'_1.1 hy
    exact copyRow_draws (by omega) (by omega)

structure TermGood (t : Term) : Prop extends TermInRange t where
  savedX : t.savedX < 80
  savedY : t.savedY < maxScroll
  params : ∀ i, t.escParams i < 2 ^ 32

lemma Draws.good (h : Draws t t') (ht : TermGood t) : TermGood t' := by
  obtain ⟨hi, hs, hsy, hp⟩ := ht
  rw [h.same]
  refine ⟨⟨hi.cursorX, hi.cursorY, hi.viewOffset, hi.region, hi.escParamCount, fun c hc => ?_,
    hi.slots⟩, hs, hsy, hp⟩
  rcases h.cells c hc with hc | hc
  · exact hi.cells c hc
  · exact hc

lemma init_good : TermGood init := by
  refine ⟨⟨?_, ?_, ?_, ?_, ?_, ?_, ?_⟩, ?_, ?_, ?_⟩ <;>
    simp [init, maxScroll, termRows, vgaHeight]

section

variable (h : TermGood t)
include h

lemma TermGood.move {x y : ℕ} (hx : x < 80) (hy : y < maxScroll) :
    TermGood { t with cursorX := x, cursorY := y } :=
  ⟨⟨hx, hy, h.viewOffset, h.region, h.escParamCount, h.cells, h.slots⟩, h.savedX, h.savedY,
    h.params⟩

lemma TermGood.setState (st : EscState) : TermGood { t with escState := st } :=
  ⟨⟨h.cursorX, h.cursorY, h.viewOffset, h.region, h.escParamCount, h.cells, h.slots⟩, h.savedX,
    h.savedY, h.params⟩

lemma TermGood.setParams {st : EscState} {count : ℕ} {params : ℕ → ℕ}
    {slots : List ℕ} (hc : count ≤ 8) (hp : ∀ i, params i < 2 ^ 32)
    (hs : ∀ i ∈ slots, i < escMaxParams) :
    TermGood { t with
      escState := st, escParamCount := count, escParams := params, slots := slots ++ t.slots } := by
  refine ⟨⟨h.cursorX, h.cursorY, h.viewOffset, h.region, hc, h.cells, fun i hi => ?_⟩, h.savedX,
    h.savedY, hp⟩
  rcases mem_append.1 hi with hi | hi
  · exact hs i hi
  · exact h.slots i hi

lemma readParams_good : TermGood t.readParams := by
  refine h.setParams h.escParamCount h.params fun i hi => ?_
  have := mem_range.1 (mem_of_mem_filter hi)
  rw [escMaxParams]
  omega

lemma applySgr_good : TermGood t.applySgr := by
  refine ⟨⟨h.cursorX, h.cursorY, h.viewOffset, h.region, h.escParamCount, h.cells, fun i hi => ?_⟩,
    h.savedX, h.savedY, h.params⟩
  rcases mem_append.1 hi with hi | hi
  · have hc := h.escParamCount
    rw [mem_range, orOne] at hi
    rw [escMaxParams]
    split_ifs at hi <;> omega
  · exact h.slots i hi

end

lemma byte_of_char {final : UInt8} (h : Char.ofNat final.toNat = 'A') : final = 0x41 := by
  have ha : ∀ n < 256, Char.ofNat n = 'A' → n = 65 := by decide +kernel
  exact UInt8.toNat_inj.1 (ha _ final.toNat_lt h)

lemma command_good (h : TermGood t) {final : UInt8} {p0 p1 : ℕ}
    (hu : final = 0x41 → t.rowUp (orOne p0) < maxScroll) :
    TermGood (t.command final p0 p1) := by
  have hv := h.viewOffset
  have hx := h.cursorX
  have hb : u32 (t.viewOffset + termRows - 1) < maxScroll := by
    simp only [u32, termRows, vgaHeight, maxScroll]
    omega
  have hc : ∀ x y, TermGood { t with
      cursorY := t.rowToBuffer y, cursorX := if x ≥ vgaWidth then vgaWidth - 1 else x } := by
    refine fun x y => h.move ?_ (rowToBuffer_le hv _)
    rw [vgaWidth]
    split_ifs <;> omega
  unfold command
  split
  · exact hc _ _
  · exact hc _ _
  · rename_i hA
    exact h.move hx (hu (byte_of_char hA))
  · refine h.move hx ?_
    split_ifs with hlt
    · exact hlt.trans hb
    · exact hb
  · refine h.move ?_ h.cursorY
    rw [vgaWidth]
    split_ifs <;> omega
  · refine h.move ?_ h.cursorY
    split_ifs <;> omega
  · split_ifs <;> exact (clearSpan_draws _ _ _ _).good h
  · split_ifs <;> exact (clearSpan_draws _ _ _ _).good h
  · exact applySgr_good h
  · exact ⟨⟨hx, h.cursorY, hv, h.region, h.escParamCount, h.cells, h.slots⟩, hx, h.cursorY,
      h.params⟩
  · exact h.move h.savedX h.savedY
  · refine ⟨⟨Nat.zero_lt_succ 79, rowToBuffer_le hv _, hv, ?_, h.escParamCount, h.cells,
      h.slots⟩, h.savedX, h.savedY, h.params⟩
    simp only [orOne, termRows, vgaHeight]
    split_ifs <;> simp only <;> omega
  · exact (insertLines_draws hv _).good h
  · exact (deleteLines_draws hv _).good h
  · exact h

lemma TermGood.orOne_param (h : TermGood t) (i : ℕ) : orOne (t.param i) < 2 ^ 32 := by
  have := h.params i
  unfold orOne param
  split_ifs <;> omega

lemma TermGood.rowUp_lt (h : TermGood t) {n : ℕ} (hn : n < 2 ^ 32)
    (hu : t.viewOffset + n < 2 ^ 32 ∨ t.cursorY + 2 ^ 32 ≤ t.viewOffset + n ∨
      t.cursorY + 2 ^ 32 < maxScroll + n) : t.rowUp n < maxScroll := by
  have hy := h.cursorY
  have hv := h.viewOffset
  simp only [maxScroll] at hy hu ⊢
  unfold rowUp
  split_ifs with hw <;> simp only [u32] at hw ⊢ <;> omega

lemma escapeFeed_good (h : TermGood t) {c : UInt8} {deferred : Bool}
    (hu : UpInBuffer t (c, deferred))
    (he : t.escState ≠ .ground) : TermGood (t.escapeFeed c).2 := by
  have hc := h.escParamCount
  have ho : 1 ≤ orOne t.escParamCount ∧ orOne t.escParamCount ≤ 8 := by
    unfold orOne
    split_ifs <;> omega
  have hslot : ∀ n < 8, ∀ i ∈ [n], i < escMaxParams := fun n hn i hi => by
    rw [mem_singleton.1 hi]
    exact hn
  have hput : ∀ k n, n < 2 ^ 32 → ∀ i, Function.update t.escParams k n i < 2 ^ 32 := fun k n hn =>
    (Function.forall_update_iff t.escParams fun _ v => v < 2 ^ 32).2 ⟨hn, fun i _ => h.params i⟩
  unfold escapeFeed
  dsimp only
  split_ifs with h0 h1 h2 h3 h4 h5 h6
  · exact h.setState _
  · exact h.setParams (Nat.zero_le 8) (hput 0 0 (by decide)) (hslot 0 (by decide))
  · exact h.setState _
  · exact h.setParams ho.2 (hput _ _ (Nat.mod_lt _ (by decide)))
      (hslot (orOne t.escParamCount - 1) (by omega))
  · exact @TermGood.setParams t h t.escState _ t.escParams [] ho.2 h.params (by simp)
  · rw [escMaxParams] at h6
    exact h.setParams (by omega) (hput _ 0 (by decide)) (hslot (orOne t.escParamCount) h6)
  · exact @TermGood.setParams t h t.escState _ t.escParams [] ho.2 h.params (by simp)
  · refine (command_good (readParams_good h) fun hA => ?_).setState _
    refine h.rowUp_lt (h.orOne_param 0) (hu ?_ hA)
    rcases hst : t.escState with _ | _ | _
    · exact absurd hst he
    · exact absurd hst h1
    · rfl

lemma backspace_good (h : TermGood t) : TermGood t.backspace := by
  have hm : TermGood (if t.cursorX > 0 then { t with cursorX := t.cursorX - 1 }
      else if t.cursorY > 0 then { t with cursorY := t.cursorY - 1, cursorX := vgaWidth - 1 }
      else t) := by
    have hx := h.cursorX
    have hy := h.cursorY
    split_ifs
    · exact h.move (by omega) hy
    · exact h.move (by decide) (by omega)
    · exact h
  unfold backspace
  dsimp only
  generalize (if t.cursorX > 0 then { t with cursorX := t.cursorX - 1 }
    else if t.cursorY > 0 then { t with cursorY := t.cursorY - 1, cursorX := vgaWidth - 1 }
    else t) = u at hm ⊢
  have hp := (@put_draws u _ _ u.blank hm.cursorY hm.cursorX).good hm
  split_ifs
  · exact (look_draws hp.cursorY hp.cursorX).good hp
  · exact hp

lemma advance_spec (h : TermGood t) (c : UInt8) : ∃ u x y, Draws t u ∧ x < 80 ∧
    t.advance c = { u with cursorX := x, cursorY := y } := by
  unfold advance
  split
  · exact ⟨t, 0, u32 (t.cursorY + 1), .refl t, by decide, rfl⟩
  · have hp : Draws t (t.put t.cursorY t.cursorX (vgaEntry c.toNat t.color)) :=
      put_draws _ h.cursorY h.cursorX
    dsimp only
    generalize t.put t.cursorY t.cursorX (vgaEntry c.toNat t.color) = u at hp ⊢
    have hl : Draws t (if u.shown u.cursorY then u.look u.cursorY u.cursorX else u) := by
      have hu := hp.good h
      split_ifs
      · exact hp.trans (look_draws hu.cursorY hu.cursorX)
      · exact hp
    generalize (if u.shown u.cursorY then u.look u.cursorY u.cursorX else u) = w at hl ⊢
    split_ifs with hw
    · exact ⟨w, 0, u32 (w.cursorY + 1), hl, by decide, rfl⟩
    · exact ⟨w, u32 (w.cursorX + 1), w.cursorY, hl, not_le.1 hw, rfl⟩

lemma shiftRows_draws (t : Term) :
    Draws t ((range' 1 (maxScroll - 1)).foldl (fun t y => t.copyRow (y - 1) y) t) := by
  refine foldl_draws fun u i hi _ => ?_
  obtain ⟨hge, hlt⟩ := mem_range'_1.1 hi
  exact copyRow_draws (by omega) (by omega)

lemma scroll_good {x : ℕ} (y : ℕ) (h : TermGood t) (hx : x < 80) :
    TermGood (scroll { t with cursorX := x, cursorY := y }) := by
  unfold scroll
  dsimp only
  split_ifs with hf
  · have hl := (shiftRows_draws { t with cursorX := x, cursorY := y }).trans
      (clearRow_draws 0 (vgaWidth - 1) (by decide : maxScroll - 1 < maxScroll))
    generalize clearRow _ _ _ _ = u at hl ⊢
    have hm : Draws { t with cursorX := x, cursorY := maxScroll - 1 }
        { u with cursorY := maxScroll - 1 } := by
      refine ⟨?_, hl.cells⟩
      rw [hl.same]
    exact hm.good (h.move hx (by decide))
  · exact h.move hx (by omega)

lemma follow_good (h : TermGood t) : TermGood t.follow := by
  have hy := h.cursorY
  have hv := h.viewOffset
  rw [maxScroll] at hy
  unfold Term.follow
  split_ifs
  · refine ⟨⟨h.cursorX, h.cursorY, ?_, h.region, h.escParamCount, h.cells, h.slots⟩, h.savedX,
      h.savedY, h.params⟩
    simp only [termRows, vgaHeight]
    omega
  · refine ⟨⟨h.cursorX, h.cursorY, ?_, h.region, h.escParamCount, h.cells, h.slots⟩, h.savedX,
      h.savedY, h.params⟩
    simp only
    omega
  · exact h

lemma ordinary_good (h : TermGood t) (c : UInt8) (deferred : Bool) :
    TermGood (t.ordinary c deferred) := by
  unfold ordinary
  split
  · exact backspace_good h
  · obtain ⟨u, x, y, hu, hx, ha⟩ := advance_spec h c
    have hs : TermGood (t.advance c).scroll := by
      rw [ha]
      exact scroll_good y (hu.good h) hx
    have hf := follow_good hs
    dsimp only
    split_ifs
    · exact (refresh_draws deferred hf.viewOffset).good hf
    · exact hf

lemma termStep_good (t : Term) (call : UInt8 × Bool) (h : TermGood t) (hu : UpInBuffer t call) :
    TermGood (termStep t call) := by
  obtain ⟨c, deferred⟩ := call
  simp only [termStep, putchar]
  split_ifs with he hst
  · exact h.setState _
  · have hf := escapeFeed_good h hu hst
    split
    · rename_i t' hr
      rw [hr] at hf
      exact (refresh_draws deferred hf.viewOffset).good hf
    · rename_i t' hr
      rw [hr] at hf
      exact hf
    · rename_i t' hr
      rw [hr] at hf
      exact ordinary_good hf c deferred
  · exact ordinary_good h c deferred

/-- Bytes whose cursor-up sequences stay in the buffer leave everything in range. -/
theorem termRun_inRange (calls : List (UInt8 × Bool))
    (hup : StepsMeet termStep UpInBuffer init calls) : TermInRange (termRun init calls) :=
  (foldl_induction termStep_good calls init_good hup).toTermInRange

def sendBytes (s : List Char) : List (UInt8 × Bool) := s.map fun c => (UInt8.ofNat c.toNat, true)

/-- `ESC[2J`, `ESC[5;10H`, a letter and `ESC[3A`. -/
theorem termRun_inRange_edit : TermInRange (termRun init (sendBytes
    ['\x1B', '[', '2', 'J', '\x1B', '[', '5', ';', '1', '0', 'H', 'x', '\x1B', '[', '3', 'A'])) :=
  termRun_inRange _ (by decide +kernel)

/-- After 62 lines the view starts at row 39, and `ESC[4294967257A` takes the cursor to row 101. -/
theorem termRun_leaves_buffer :
    let t := termRun init (sendBytes (replicate 62 '\n' ++
      ['\x1B', '[', '4', '2', '9', '4', '9', '6', '7', '2', '5', '7', 'A']))
    ¬ TermInRange t ∧ t.cursorY = 101 ∧ (101, 0) ∈ (termStep t (0x78, true)).cells := by
  have hrow : (termRun init (sendBytes (replicate 62 '\n' ++
      ['\x1B', '[', '4', '2', '9', '4', '9', '6', '7', '2', '5', '7', 'A']))).cursorY = 101 := by
    decide +kernel
  refine ⟨fun h => ?_, hrow, by decide +kernel⟩
  have := h.cursorY
  rw [hrow] at this
  exact absurd this (by decide)

end EsdumanOS
