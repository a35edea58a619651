import EsdumanOS.LineEditor
import EsdumanOS.Proofs.Tty

/-!
# The terminal as a tape

From a row of the buffer on, the cells are one tape, which moves up where the buffer scrolls.
`OnTape` says what stands on it and where the cursor is; a printed byte writes the cell under the
cursor, an erase blanks the tape from there on.
-/

namespace EsdumanOS

open Lib List Function Term

variable {c : UInt8} {n : ℕ}

section

variable (t : Term)
include t

lemma put_buffer (y x v i j : ℕ) :
    (t.put y x v).buffer i j = if i = y ∧ j = x then v else t.buffer i j := by
  simp only [put, update_apply]
  by_cases hi : i = y
  · subst hi
    simp [update_apply]
  · simp [hi]

@[simp] lemma look_buffer (y x : ℕ) : (t.look y x).buffer = t.buffer := rfl

lemma copyRow_buffer {y src : ℕ} (i j : ℕ) :
    (t.copyRow y src).buffer i j =
      if i = y ∧ j < vgaWidth then t.buffer src j else t.buffer i j := by
  have hc : ∀ k i j, ((range k).foldl
      (fun t x => (t.look src x).put y x (t.buffer src x)) t).buffer i j =
      if i = y ∧ j < k then t.buffer src j else t.buffer i j := by
    intro k
    induction k with
    | zero => simp
    | succ k ih =>
      intro i j
      rw [range_succ, foldl_append, foldl_cons, foldl_nil, put_buffer, look_buffer, ih, ih]
      by_cases hi : i = y
      · rcases Nat.lt_trichotomy j k with hj | rfl | hj
        · simp [hi, hj, hj.ne, Nat.lt_succ_of_lt hj]
        · simp [hi]
        · simp [hi, hj.ne', Nat.not_lt.2 hj.le, Nat.not_lt.2 (Nat.succ_le_of_lt hj)]
      · simp [hi]
  exact hc vgaWidth i j

/-- Where no row is copied after it has been written, each gets the row it should have. -/
lemma copyRows_buffer (src : ℕ → ℕ) (i j : ℕ) {ys : List ℕ}
    (h : ys.Pairwise fun y z => y ≠ z ∧ y ≠ src z) :
    (ys.foldl (fun t y => t.copyRow y (src y)) t).buffer i j =
      if i ∈ ys ∧ j < vgaWidth then t.buffer (src i) j else t.buffer i j := by
  induction ys generalizing t with
  | nil => simp
  | cons y ys ih =>
    obtain ⟨hy, h⟩ := pairwise_cons.1 h
    rw [foldl_cons, ih _ h, copyRow_buffer, copyRow_buffer]
    by_cases hi : i ∈ ys
    · simp [hi, (hy i hi).1.symm, (hy i hi).2.symm]
    · by_cases hiy : i = y
      · subst hiy
        simp [hi]
      · simp [hi, hiy]

lemma shiftRows_buffer (k i j : ℕ) (hj : j < vgaWidth) :
    ((range' 1 k).foldl (fun t y => t.copyRow (y - 1) y) t).buffer i j =
      if i < k then t.buffer (i + 1) j else t.buffer i j := by
  have hp : (range k).Pairwise fun y z => y ≠ z ∧ y ≠ z + 1 :=
    pairwise_lt_range.imp fun h => by omega
  have hs := copyRows_buffer t (· + 1) i j hp
  simpa [range'_eq_map_range, foldl_map, Nat.add_comm, hj] using hs

lemma clearRow_buffer (y x0 x1 i j : ℕ) :
    (t.clearRow y x0 x1).buffer i j =
      if i = y ∧ x0 ≤ j ∧ j ≤ x1 ∧ j < vgaWidth then t.blank else t.buffer i j := by
  have hc : ∀ k, ((range' x0 k).foldl (fun t x => t.put y x t.blank) t).color = t.color ∧
      ∀ i j, ((range' x0 k).foldl (fun t x => t.put y x t.blank) t).buffer i j =
        if i = y ∧ x0 ≤ j ∧ j < x0 + k then t.blank else t.buffer i j := by
    intro k
    induction k with
    | zero => exact ⟨rfl, fun i j => (if_neg (by omega)).symm⟩
    | succ k ih =>
      rw [range'_1_concat, foldl_append, foldl_cons, foldl_nil]
      refine ⟨ih.1, fun i j => ?_⟩
      rw [put_buffer, ih.2, show blank _ = t.blank by rw [blank, ih.1, blank]]
      split_ifs <;> first | rfl | omega
  rw [clearRow, (hc _).2]
  congr 1
  simp only [eq_iff_iff]
  constructor <;> rintro ⟨hi, hx, h⟩ <;> refine ⟨hi, hx, ?_⟩ <;> omega

lemma clearRow_color (y x0 x1 : ℕ) : (t.clearRow y x0 x1).color = t.color :=
  foldl_invariant (fun (u : Term) x (hu : u.color = t.color) =>
    (show (u.put y x u.blank).color = t.color from hu)) _ rfl

lemma clearSpan_buffer (fromY fromX toY toX i j : ℕ) :
    (t.clearSpan fromY fromX toY toX).buffer i j =
      if fromY ≤ i ∧ i ≤ toY ∧ i < maxScroll ∧ (if i = fromY then fromX else 0) ≤ j ∧
        j ≤ (if i = toY then toX else vgaWidth - 1) ∧ j < vgaWidth then t.blank
      else t.buffer i j := by
  have hr : ∀ k, ((range' fromY k).foldl (fun t y =>
        t.clearRow y (if y = fromY then fromX else 0) (if y = toY then toX else vgaWidth - 1))
          t).color =
        t.color ∧
      ∀ i j, ((range' fromY k).foldl (fun t y =>
        t.clearRow y (if y = fromY then fromX else 0)
          (if y = toY then toX else vgaWidth - 1)) t).buffer i j =
        if (fromY ≤ i ∧ i < fromY + k) ∧ (if i = fromY then fromX else 0) ≤ j ∧
          j ≤ (if i = toY then toX else vgaWidth - 1) ∧ j < vgaWidth then t.blank
        else t.buffer i j := by
    intro k
    induction k with
    | zero => exact ⟨rfl, fun i j => (if_neg fun h => by omega).symm⟩
    | succ k ih =>
      rw [range'_1_concat, foldl_append, foldl_cons, foldl_nil]
      refine ⟨(clearRow_color _ _ _ _).trans ih.1, fun i j => ?_⟩
      rw [clearRow_buffer, ih.2, show blank _ = t.blank by rw [blank, ih.1, blank]]
      by_cases hi : i = fromY + k
      · subst hi
        have hn : fromY ≤ fromY + k ∧ fromY + k < fromY + (k + 1) := by omega
        simp only [true_and, hn, Nat.lt_irrefl, false_and, if_false]
      · have : fromY ≤ i ∧ i < fromY + (k + 1) ↔ fromY ≤ i ∧ i < fromY + k := by omega
        simp only [hi, false_and, if_false, this]
  rw [clearSpan, (hr _).2]
  congr 1
  simp only [eq_iff_iff]
  constructor
  · rintro ⟨⟨hge, hlt⟩, h⟩
    exact ⟨hge, by omega, by omega, h⟩
  · rintro ⟨hge, hle, hm, h⟩
    exact ⟨⟨hge, by omega⟩, h⟩

end

section Lines

variable {t : Term} {n : ℕ}

lemma row_eq {u : Term} {y z : ℕ} (h : ∀ j < vgaWidth, u.buffer y j = t.buffer z j) :
    u.row y = t.row z :=
  map_congr_left fun j hj => h j (mem_range.1 hj)

lemma row_blank {u : Term} {y : ℕ} (h : ∀ j < vgaWidth, u.buffer y j = t.blank) :
    u.row y = replicate vgaWidth t.blank := by
  rw [row, map_congr_left fun j hj => h j (mem_range.1 hj)]
  simp

/-- The rows `ys` take those at `src` in an order that loses none, then a span of rows is
blanked. -/
lemma moveRows_row (src : ℕ → ℕ) {ys : List ℕ} {lo hi : ℕ} (y : ℕ) (hh : hi < maxScroll)
    (h : ys.Pairwise fun y z => y ≠ z ∧ y ≠ src z)
    (hm : ∀ y ∈ ys, y < maxScroll ∧ src y < maxScroll) :
    ((ys.foldl (fun t y => t.copyRow y (src y)) t).clearSpan lo 0 hi (vgaWidth - 1)).row y =
      if lo ≤ y ∧ y ≤ hi then replicate vgaWidth t.blank
      else if y ∈ ys then t.row (src y) else t.row y := by
  have hd : Draws t (ys.foldl (fun t y => t.copyRow y (src y)) t) :=
    foldl_draws fun u y hy _ => copyRow_draws (hm y hy).1 (hm y hy).2
  have hb : (ys.foldl (fun t y => t.copyRow y (src y)) t).blank = t.blank := by
    rw [blank, hd.same]
    rfl
  split_ifs with hy hys
  · refine row_blank fun j hj => ?_
    rw [clearSpan_buffer, if_pos ⟨hy.1, hy.2, by omega, by simp, by split_ifs <;> omega, hj⟩, hb]
  · refine row_eq fun j hj => ?_
    rw [clearSpan_buffer, if_neg (by tauto), copyRows_buffer _ _ _ _ h, if_pos ⟨hys, hj⟩]
  · refine row_eq fun j hj => ?_
    rw [clearSpan_buffer, if_neg (by tauto), copyRows_buffer _ _ _ _ h, if_neg (by tauto)]

lemma Draws.rowsBelow {u : Term} (h : Draws t u) : u.rowsBelow =
    (range' t.cursorY (t.regionBottom + 1 - t.cursorY)).map u.row := by
  have hc : u.cursorY = t.cursorY := by rw [h.same]
  have hr : u.regionBottom = t.regionBottom := by
    rw [h.same]
    rfl
  rw [Term.rowsBelow, hc, hr]

lemma lineCount_eq (t : Term) (h : t.cursorY ≤ t.regionBottom) :
    t.lineCount n = min (orOne n) t.rowsBelow.length := by
  simp only [lineCount, rowsBelow, length_map, length_range']
  split_ifs <;> omega

/-- Lines are inserted and deleted as in a list, from the cursor's row to the end of the region. -/
theorem lines_spliced (t : Term) (hv : t.viewOffset ≤ 76) (n : ℕ) :
    if t.regionTop ≤ t.cursorY ∧ t.cursorY ≤ t.regionBottom then
      (t.insertLines n).rowsBelow =
        replicate (min (orOne n) t.rowsBelow.length) (replicate vgaWidth t.blank) ++
          t.rowsBelow.take (t.rowsBelow.length - min (orOne n) t.rowsBelow.length) ∧
      (t.deleteLines n).rowsBelow = t.rowsBelow.drop (min (orOne n) t.rowsBelow.length) ++
        replicate (min (orOne n) t.rowsBelow.length) (replicate vgaWidth t.blank) ∧
      ∀ y, y < t.cursorY ∨ t.regionBottom < y →
        (t.insertLines n).row y = t.row y ∧ (t.deleteLines n).row y = t.row y
    else t.insertLines n = t ∧ t.deleteLines n = t := by
  have hb : t.regionBottom < maxScroll := rowToBuffer_le hv _
  split_ifs with hin
  swap
  · have hout : t.cursorY < t.regionTop ∨ t.cursorY > t.regionBottom := by omega
    exact ⟨if_pos hout, if_pos hout⟩
  obtain ⟨htop, hbot⟩ := hin
  have hin : ¬ (t.cursorY < t.regionTop ∨ t.cursorY > t.regionBottom) := by omega
  have hlen : t.rowsBelow.length = t.regionBottom + 1 - t.cursorY := by simp [rowsBelow]
  obtain ⟨k, hk, h1, hle⟩ : ∃ k, k = min (orOne n) t.rowsBelow.length ∧ 1 ≤ k ∧
      k ≤ t.regionBottom + 1 - t.cursorY := by
    refine ⟨_, rfl, ?_, by omega⟩
    unfold orOne
    split_ifs <;> omega
  have hc := lineCount_eq (n := n) t hbot
  rw [← hk] at hc ⊢
  have hins : ∀ y, (t.insertLines n).row y = _ := fun y => by
    simp only [insertLines, if_neg hin, hc]
    refine moveRows_row (fun y => y - k) y (by omega) ?_ fun z hz => ?_
    · exact pairwise_reverse.2 ((pairwise_lt_range' 1).imp fun h => by omega)
    · obtain ⟨hge, hlt⟩ := mem_range'_1.1 (mem_reverse.1 hz)
      omega
  have hdel : ∀ y, (t.deleteLines n).row y = _ := fun y => by
    simp only [deleteLines, if_neg hin, hc]
    refine moveRows_row (fun y => y + k) y hb ?_ fun z hz => ?_
    · exact (pairwise_lt_range' 1).imp fun h => by omega
    · obtain ⟨hge, hlt⟩ := mem_range'_1.1 hz
      omega
  simp only [mem_reverse, mem_range'_1] at hins hdel
  refine ⟨?_, ?_, fun y hy => ?_⟩
  · rw [(insertLines_draws hv n).rowsBelow]
    refine ext_getElem (by simp; omega) fun i hi hi' => ?_
    simp only [length_map, length_range'] at hi
    simp only [rowsBelow, getElem_map, getElem_range', hins, getElem_append, getElem_replicate,
      length_replicate, getElem_take]
    split_ifs <;> first | rfl | omega | (congr 1; omega)
  · rw [(deleteLines_draws hv n).rowsBelow]
    refine ext_getElem (by simp; omega) fun i hi hi' => ?_
    simp only [length_map, length_range'] at hi
    simp only [rowsBelow, getElem_map, getElem_range', hdel, getElem_append, getElem_replicate,
      length_drop, length_map, length_range', getElem_drop]
    split_ifs <;> first | rfl | omega | (congr 1; omega)
  · rw [hins, hdel]
    constructor <;> rw [if_neg (by omega), if_neg (by omega)]

/-- On a screen whose cells have the numbers of their rows, row 2 moves up to the cursor. -/
theorem lines_spliced_init : let t : Term := { init with buffer := fun y _ => y }
    (t.deleteLines 2).rowsBelow = t.rowsBelow.drop 2 ++ replicate 2 (replicate vgaWidth t.blank) ∧
      (t.rowsBelow.drop 2).head? = some (replicate vgaWidth 2) := by
  intro t
  have h := lines_spliced t (by decide) 2
  rw [if_pos (by decide), show min (orOne 2) t.rowsBelow.length = 2 by decide] at h
  exact ⟨h.2.1, by decide⟩

end Lines

section Print

variable {t : Term}

lemma vgaEntry_char {c : ℕ} (hc : c < 256) (color : ℕ) : vgaEntry c color % 256 = c := by
  rw [vgaEntry, show 256 = 2 ^ 8 from rfl, Nat.or_mod_two_pow, Nat.mul_mod_left, Nat.or_zero,
    Nat.mod_eq_of_lt hc]

lemma blank_char (t : Term) : t.blank % 256 = 32 := vgaEntry_char (by decide) _

lemma advance_cell (c : UInt8) (hc : c ≠ 0x0A) (hx : t.cursorX < 80) (hy : t.cursorY < maxScroll) :
    ∃ u, Draws t u ∧
      (∀ i j, u.buffer i j = if i = t.cursorY ∧ j = t.cursorX then vgaEntry c.toNat t.color
        else t.buffer i j) ∧
      t.advance c = { u with
        cursorX := if t.cursorX = 79 then 0 else t.cursorX + 1
        cursorY := if t.cursorX = 79 then t.cursorY + 1 else t.cursorY } := by
  rw [maxScroll] at hy
  have hp : Draws t (t.put t.cursorY t.cursorX (vgaEntry c.toNat t.color)) :=
    put_draws _ (by exact hy) hx
  have hb := put_buffer t t.cursorY t.cursorX (vgaEntry c.toNat t.color)
  unfold advance
  rw [if_neg hc]
  dsimp only
  generalize t.put t.cursorY t.cursorX (vgaEntry c.toNat t.color) = u at hp hb ⊢
  have hu : u.cursorX = t.cursorX := by rw [hp.same]
  have huy : u.cursorY = t.cursorY := by rw [hp.same]
  have hlo : ∃ w, Draws t w ∧ w.buffer = u.buffer ∧ w.cursorX = t.cursorX ∧ w.cursorY = t.cursorY ∧
      (if u.shown u.cursorY then u.look u.cursorY u.cursorX else u) = w := by
    split_ifs
    · exact ⟨_, hp.trans (look_draws (by rw [huy, maxScroll]; exact hy) (by rw [hu]; exact hx)),
        rfl, hu, huy, rfl⟩
    · exact ⟨u, hp, rfl, hu, huy, rfl⟩
  obtain ⟨w, hw, hwb, hwx, hwy, heq⟩ := hlo
  rw [heq]
  refine ⟨w, hw, fun i j => by rw [hwb, hb], ?_⟩
  have hn : u32 (w.cursorX + 1) = t.cursorX + 1 := by rw [hwx, u32_of_lt (by omega)]
  have hd : u32 (w.cursorY + 1) = t.cursorY + 1 := by rw [hwy, u32_of_lt (by omega)]
  rw [hn, hd, vgaWidth]
  by_cases hl : t.cursorX = 79
  · simp [hl]
  · rw [if_neg (by omega), if_neg hl, if_neg hl, ← hwy]

lemma scroll_cells (t : Term) (hy : t.cursorY ≤ maxScroll) :
    ∃ lift, (lift = 0 ∧ t.cursorY < 100 ∨ lift = 1 ∧ t.cursorY = 100) ∧
      t.scroll.cursorX = t.cursorX ∧ t.scroll.cursorY + lift = t.cursorY ∧
      t.scroll.viewOffset = t.viewOffset ∧ t.scroll.escState = t.escState ∧
      ∀ i j, i < 100 → j < 80 → t.scroll.charAt i j =
        if i + lift = 100 then 32 else t.charAt (i + lift) j := by
  rw [maxScroll] at hy
  unfold scroll
  by_cases hf : t.cursorY = 100
  · rw [if_pos (by rw [maxScroll]; omega)]
    have hr := shiftRows_draws t
    have hbu := fun i j hj => shiftRows_buffer t (maxScroll - 1) i j hj
    generalize (range' 1 (maxScroll - 1)).foldl (fun t y => t.copyRow (y - 1) y) t = u
      at hr hbu ⊢
    have hl := hr.trans (clearRow_draws 0 (vgaWidth - 1) (by decide : maxScroll - 1 < maxScroll))
    have hro := clearRow_buffer u (maxScroll - 1) 0 (vgaWidth - 1)
    have hb := blank_char u
    dsimp only
    generalize u.clearRow (maxScroll - 1) 0 (vgaWidth - 1) = w at hl hro ⊢
    have hx : w.cursorX = t.cursorX := by rw [hl.same]
    have he : w.escState = t.escState := by rw [hl.same]
    refine ⟨1, .inr ⟨rfl, hf⟩, hx, by simp [maxScroll, hf], hl.viewOffset, he,
      fun i j hi hj => ?_⟩
    change w.buffer i j % 256 = if i + 1 = 100 then 32 else t.buffer (i + 1) j % 256
    rw [hro]
    by_cases hl : i = 99
    · simp [hl, maxScroll, vgaWidth, show j ≤ 79 by omega, hj, hb]
    · rw [if_neg (by simp [maxScroll, hl]), hbu i j hj, if_pos (by rw [maxScroll]; omega),
        if_neg (by omega)]
  · rw [if_neg (by rw [maxScroll]; omega)]
    refine ⟨0, .inl ⟨rfl, by omega⟩, rfl, rfl, rfl, rfl, fun i j hi _ => ?_⟩
    rw [if_neg (by omega), Nat.add_zero]

lemma follow_view (t : Term) (hv : t.viewOffset ≤ 76) :
    t.follow = { t with viewOffset :=
      if t.cursorY > t.viewOffset + 23 then t.cursorY - 23
      else if t.cursorY < t.viewOffset then t.cursorY else t.viewOffset } := by
  unfold Term.follow
  rw [show termRows - 1 = 23 from rfl, u32_of_lt (by omega)]
  split_ifs <;> rfl

lemma refresh_eq (t : Term) (d : Bool) : ∃ cells, t.refresh d = { t with cells := cells } := by
  have hs : ∃ cells, t.updateScreen = { t with cells := cells } := by
    refine foldl_invariant (fun (u : Term) y (hu : ∃ cells, u = { t with cells := cells }) => ?_) _
      ⟨t.cells, rfl⟩
    refine foldl_invariant
      (fun (w : Term) x (hw : ∃ cells, w = { t with cells := cells }) => ?_) _ hu
    obtain ⟨cells, rfl⟩ := hw
    exact ⟨_, rfl⟩
  unfold refresh
  split_ifs
  · exact ⟨t.cells, rfl⟩
  · exact hs

lemma ordinary_print (c : UInt8) (d : Bool) (hc : FillsCell c) (hx : t.cursorX < 80)
    (hy : t.cursorY < maxScroll) (hv : t.viewOffset ≤ 76) :
    ∃ lift y, (lift = 0 ∨ lift = 1 ∧ t.cursorY = 99 ∧ t.cursorX = 79) ∧ y < 100 ∧
      y + lift = (if t.cursorX = 79 then t.cursorY + 1 else t.cursorY) ∧
      (t.ordinary c d).cursorY = y ∧
      (t.ordinary c d).cursorX = (if t.cursorX = 79 then 0 else t.cursorX + 1) ∧
      (t.ordinary c d).viewOffset = (if y > t.viewOffset + 23 then y - 23
          else if y < t.viewOffset then y else t.viewOffset) ∧
      (t.ordinary c d).escState = t.escState ∧
      ∀ i j, i < 100 → j < 80 → (t.ordinary c d).charAt i j =
        if i + lift = 100 then 32
        else if i + lift = t.cursorY ∧ j = t.cursorX then c.toNat
        else t.charAt (i + lift) j := by
  obtain ⟨u, hu, hb, ha⟩ := advance_cell c hc.2.1 hx hy
  rw [maxScroll] at hy
  have hay : (t.advance c).cursorY = if t.cursorX = 79 then t.cursorY + 1 else t.cursorY := by
    rw [ha]
  have hax : (t.advance c).cursorX = if t.cursorX = 79 then 0 else t.cursorX + 1 := by rw [ha]
  have hav : (t.advance c).viewOffset = t.viewOffset := by
    rw [ha]
    exact hu.viewOffset
  have hae : (t.advance c).escState = t.escState := by
    rw [ha]
    rw [hu.same]
  have hab : ∀ i j, (t.advance c).charAt i j =
      if i = t.cursorY ∧ j = t.cursorX then c.toNat else t.charAt i j := by
    intro i j
    rw [ha]
    change u.buffer i j % 256 = _
    rw [hb]
    split_ifs
    · exact vgaEntry_char c.toNat_lt _
    · rfl
  obtain ⟨lift, hl, hsx, hs, hsv, hse, hcl⟩ := scroll_cells (t.advance c) (by
    rw [hay, maxScroll]
    split_ifs <;> omega)
  rw [hay] at hl hs
  rw [hax] at hsx
  rw [hav] at hsv
  rw [hae] at hse
  have hs' : (t.advance c).scroll.cursorY < 100 := by
    split_ifs at hs hl <;> omega
  have hf := follow_view (t.advance c).scroll (by omega)
  rw [hsv] at hf
  -- the refresh that may follow changes none of this
  have he : ∃ cells, t.ordinary c d = { (t.advance c).scroll.follow with cells := cells } := by
    unfold ordinary
    rw [if_neg hc.1]
    dsimp only
    split_ifs
    · exact refresh_eq _ d
    · exact ⟨_, rfl⟩
  obtain ⟨cells, he⟩ := he
  rw [he, hf]
  refine ⟨lift, (t.advance c).scroll.cursorY, ?_, hs', hs, rfl, hsx, rfl, hse, fun i j hi hj => ?_⟩
  · split_ifs at hl <;> omega
  · have hce := hcl i j hi hj
    rw [hab] at hce
    exact hce

end Print

section Tape

/-- The tape from row `row` has `cells` on it, with the cursor at `cur`; its rows up to `last` are
on the screen. -/
structure OnTape (t : Term) (row : ℕ) (cells : ℕ → ℕ) (cur last : ℕ) : Prop where
  ground : t.escState = .ground
  view : t.viewOffset ≤ 76
  top : t.viewOffset ≤ row
  cursorX : t.cursorX = cur % 80
  cursorY : t.cursorY = row + cur / 80
  le_last : cur / 80 ≤ last
  shown : row + last ≤ t.viewOffset + 23
  holds : ∀ n, row + n / 80 < 100 → t.charAt (row + n / 80) (n % 80) = cells n
  below : ∀ n, t.viewOffset + 23 < row + n / 80 → cells n = 32

variable {t t' : Term} {row cur last : ℕ} {cells : ℕ → ℕ}

lemma termStep_ground (d : Bool) (hc : c ≠ 0x1B) (h : t.escState = .ground) :
    termStep t (c, d) = t.ordinary c d := by
  simp [termStep, putchar, hc, h]

lemma OnTape.put (h : OnTape t row cells cur last) (hc : FillsCell c) (d : Bool)
    (hcu : cur + 1 < 1920) : ∃ row',
      OnTape (termStep t (c, d)) row' (update cells cur c.toNat) (cur + 1)
        (max last ((cur + 1) / 80)) := by
  obtain ⟨hg, hv, htop, hx, hy, hle, hs, hcl, hb⟩ := h
  obtain ⟨lift, y, hl, hy100, hyl, hcy, hcx, hcv, hce, hcc⟩ :=
    ordinary_print (t := t) c d hc (by omega) (by rw [maxScroll]; omega) hv
  rw [termStep_ground d hc.2.2 hg]
  have hyr : y = row - lift + (cur + 1) / 80 := by
    split_ifs at hyl <;> omega
  -- the view stays or moves down, and the tape with it
  have hv' : t.viewOffset ≤ (t.ordinary c d).viewOffset ∧ (t.ordinary c d).viewOffset ≤ 76 ∧
      (t.ordinary c d).viewOffset ≤ row - lift ∧ y ≤ (t.ordinary c d).viewOffset + 23 := by
    rw [hcv]
    split_ifs <;> omega
  refine ⟨row - lift, hce.trans hg, hv'.2.1, hv'.2.2.1, ?_, hcy.trans hyr,
    le_max_right _ _, ?_, fun n hn => ?_, fun n hn => ?_⟩
  · rw [hcx]
    split_ifs <;> omega
  · rcases Nat.le_total last ((cur + 1) / 80) with hm | hm
    · omega
    · omega
  · rw [hcc _ _ hn (Nat.mod_lt _ (by decide))]
    split_ifs with hla ha
    · rw [update_of_ne (by omega), hb n (by omega)]
    · have : n = cur := by omega
      rw [this, update_self]
    · have hne : n ≠ cur := by
        rintro rfl
        exact ha ⟨by omega, by omega⟩
      have hba : row - lift + n / 80 + lift = row + n / 80 := by omega
      rw [update_of_ne hne, hba, hcl n (by omega)]
  · rw [update_of_ne (by omega), hb n (by omega)]

lemma OnTape.first (d : Bool) (hc : FillsCell c) (hs : t.AtColumnZero) (hb : t.BlankBelow) : ∃ row,
      OnTape (termStep t (c, d)) row (update (fun _ => 32) 0 c.toNat) 1 0 := by
  obtain ⟨hg, hx, hy, hv⟩ := hs
  obtain ⟨lift, y, hl, hy100, hyl, hcy, hcx, hcv, hce, hcc⟩ :=
    ordinary_print (t := t) c d hc (by omega) hy hv
  rw [termStep_ground d hc.2.2 hg]
  obtain rfl : lift = 0 := by omega
  have hyt : y = t.cursorY := by
    rw [if_neg (by omega)] at hyl
    omega
  have hv' : (t.ordinary c d).viewOffset ≤ 76 ∧ (t.ordinary c d).viewOffset ≤ t.cursorY ∧
      t.cursorY ≤ (t.ordinary c d).viewOffset + 23 := by
    rw [hcv]
    split_ifs <;> omega
  refine ⟨t.cursorY, hce.trans hg, hv'.1, hv'.2.1, ?_, by omega, le_rfl,
    by omega, fun n hn => ?_, fun n hn => ?_⟩
  · rw [hcx, if_neg (by omega), hx]
  · rw [hcc _ _ hn (Nat.mod_lt _ (by decide)), if_neg (by omega)]
    split_ifs with ha
    · have : n = 0 := by omega
      rw [this, update_self]
    · have hne : n ≠ 0 := by
        rintro rfl
        exact ha ⟨by omega, by omega⟩
      rw [update_of_ne hne]
      exact hb _ _ (by omega) hn (Nat.mod_lt _ (by decide))
  · rw [update_of_ne (by omega)]

def writeTape : (ℕ → ℕ) → ℕ → List UInt8 → ℕ → ℕ
  | cells, _, [] => cells
  | cells, cur, c :: bytes => writeTape (update cells cur c.toNat) (cur + 1) bytes

lemma writeTape_apply : ∀ (bytes : List UInt8) (cells : ℕ → ℕ) (cur n : ℕ),
    writeTape cells cur bytes n =
      if cur ≤ n then (bytes[n - cur]?.map UInt8.toNat).getD (cells n) else cells n
  | [], cells, cur, n => by simp [writeTape]
  | c :: bytes, cells, cur, n => by
    rw [writeTape, writeTape_apply bytes]
    rcases Nat.lt_trichotomy n cur with hn | rfl | hn
    · rw [if_neg (by omega), if_neg (by omega), update_of_ne hn.ne]
    · simp
    · rw [if_pos (by omega), if_pos hn.le, update_of_ne hn.ne',
        show n - cur = n - (cur + 1) + 1 by omega, getElem?_cons_succ]

lemma OnTape.print (d : Bool) :
    ∀ (bytes : List UInt8) {t : Term} {row cur last : ℕ} {cells : ℕ → ℕ},
    OnTape t row cells cur last → (∀ c ∈ bytes, FillsCell c) → cur + bytes.length < 1920 →
    ∃ row' last', OnTape (printOn d t bytes) row' (writeTape cells cur bytes) (cur + bytes.length)
      last'
  | [], t, row, cur, last, cells, h, _, _ => ⟨row, last, h⟩
  | c :: bytes, t, row, cur, last, cells, h, hbytes, hl => by
    rw [length_cons] at hl
    obtain ⟨row1, h1⟩ := h.put (hbytes c mem_cons_self) d (by omega)
    obtain ⟨row2, last2, h2⟩ := OnTape.print d bytes h1
      (fun c hc => hbytes c (mem_cons_of_mem _ hc)) (by omega)
    have hcu : cur + 1 + bytes.length = cur + (c :: bytes).length := by
      rw [length_cons]
      omega
    rw [hcu] at h2
    exact ⟨row2, last2, h2⟩

end Tape

section Sequences

lemma orOne_of_pos (h : 0 < n) : orOne n = n := if_neg h.ne'

variable {t u : Term} {row cur last : ℕ} {cells : ℕ → ℕ}

lemma printOn_nil (d : Bool) (t : Term) : printOn d t [] = t := rfl

lemma printOn_append (d : Bool) (t : Term) (bytes more : List UInt8) :
    printOn d t (bytes ++ more) = printOn d (printOn d t bytes) more := by
  simp [printOn, termRun]

structure CsiReading (t u : Term) (n : ℕ) : Prop where
  same : u = { t with
    escState := .csi, escParams := u.escParams, escParamCount := u.escParamCount, slots := u.slots }
  param : u.escParams 0 = n
  count : u.escParamCount = if n = 0 then 0 else 1

lemma CsiReading.begin (t : Term) (d : Bool) : CsiReading t (printOn d t [0x1B, ascii '[']) 0 := by
  refine ⟨rfl, ?_, rfl⟩
  simp [printOn, termRun, termStep, putchar, escapeFeed, ascii]

lemma CsiReading.digit (h : CsiReading t u n) (d : Bool) {k : ℕ} (hk : k < 10)
    (hn : n * 10 + k < 2 ^ 32) (hp : n * 10 + k ≠ 0) :
    CsiReading t (printOn d u [ascii '0' + k.toUInt8]) (n * 10 + k) := by
  have hcs : u.escState = .csi := by rw [h.same]
  have hd : ∀ k < 10, (ascii '0' + Nat.toUInt8 k).toNat = 48 + k := by decide
  have hc := hd k hk
  generalize ascii '0' + k.toUInt8 = c at hc ⊢
  have hl : ¬ c < 0x20 := by rw [UInt8.lt_iff_toNat_lt]; simp; omega
  have he : c ≠ 0x1B := fun heq => by rw [heq] at hc; simp at hc; omega
  have hdi : 0x30 ≤ c ∧ c ≤ 0x39 := by
    constructor <;> rw [UInt8.le_iff_toNat_le] <;> simp <;> omega
  have hco : orOne u.escParamCount = 1 := by
    rw [h.count, orOne]
    split_ifs <;> simp_all
  have hr : printOn d u [c] = { u with
      escParamCount := 1
      escParams := update u.escParams 0 (u32 (u.escParams 0 * 10 + (c.toNat - 0x30)))
      slots := 0 :: u.slots } := by
    simp [printOn, termRun, termStep, putchar, he, hcs, escapeFeed, hl, hdi, hco,
      escMaxParams]
  rw [hr]
  refine ⟨?_, ?_, ?_⟩
  · rw [h.same]
  · dsimp only
    rw [update_self, h.param, hc, show 48 + k - 0x30 = k by omega, u32_of_lt hn]
  · rw [if_neg hp]

lemma CsiReading.digits (d : Bool) : ∀ (fuel n : ℕ), n < 10 ^ fuel → n < 2 ^ 32 → CsiReading t u 0 →
    CsiReading t (printOn d u (decDigits fuel n)) n
  | 0, n, hf, _, h => by
    obtain rfl : n = 0 := by omega
    exact h
  | fuel + 1, n, hf, hn, h => by
    unfold decDigits
    split_ifs with hz
    · subst hz
      exact h
    · have hr : n / 10 < 10 ^ fuel := by
        omega
      have hs := (CsiReading.digits d fuel (n / 10) hr (by omega) h).digit d
        (Nat.mod_lt n (by decide)) (by omega) (by omega)
      rw [printOn_append]
      rwa [show n / 10 * 10 + n % 10 = n by omega] at hs

def csiSequence (n : ℕ) (final : Char) : List UInt8 :=
  0x1B :: ascii '[' :: decDigits 10 n ++ [ascii final]

lemma csi_run (t : Term) (d : Bool) (n : ℕ) (final : Char) (hn : n < 10 ^ 9)
    (hf : 0x3B < ascii final) :
    ∃ (u : Term) (cells : List (ℕ × ℕ)), u.viewOffset = t.viewOffset ∧ u.cursorX = t.cursorX ∧
      u.cursorY = t.cursorY ∧ u.buffer = t.buffer ∧ printOn d t (csiSequence n final) =
        { u.readParams.command (ascii final) n (u.param 1) with
          escState := .ground, cells := cells } := by
  have hr := (CsiReading.begin t d).digits d 10 n (by omega) (by omega)
  rw [← printOn_append] at hr
  generalize hu : printOn d t ([0x1B, ascii '['] ++ decDigits 10 n) = u at hr
  have hcs : u.escState = .csi := by rw [hr.same]
  have hp : u.param 0 = n := by
    rw [param, hr.count, hr.param]
    split_ifs <;> omega
  obtain ⟨cells, hc⟩ := refresh_eq { u.csiDispatch (ascii final) with escState := .ground } d
  refine ⟨u, cells, by rw [hr.same], by rw [hr.same], by rw [hr.same], by rw [hr.same], ?_⟩
  have hs : csiSequence n final = [0x1B, ascii '['] ++ decDigits 10 n ++ [ascii final] := rfl
  rw [hs, printOn_append, hu]
  generalize ascii final = c at hf hc ⊢
  rw [UInt8.lt_iff_toNat_lt] at hf
  have hna : (0x3B : UInt8).toNat = 59 := rfl
  have he : c ≠ 0x1B := fun heq => by rw [heq] at hf; revert hf; decide
  have hl : ¬ c < 0x20 := by
    rw [UInt8.lt_iff_toNat_lt, show (0x20 : UInt8).toNat = 32 from rfl]
    omega
  have hd : ¬ (0x30 ≤ c ∧ c ≤ 0x39) := by
    rw [UInt8.le_iff_toNat_le, UInt8.le_iff_toNat_le, show (0x39 : UInt8).toNat = 57 from rfl]
    omega
  have hse : c ≠ 0x3B := fun heq => by rw [heq] at hf; exact lt_irrefl _ hf
  have hst : printOn d u [c] = refresh { u.csiDispatch c with escState := .ground } d := by
    simp [printOn, termRun, termStep, putchar, he, hcs, escapeFeed, hl, hd, hse]
  rw [hst, hc, csiDispatch, hp]

section

variable (h : OnTape t row cells cur last)
include h

lemma OnTape.moved {v : Term} {cur' : ℕ}
    (hg : v.escState = .ground) (hv : v.viewOffset = t.viewOffset)
    (hb : v.buffer = t.buffer) (hx : v.cursorX = cur' % 80) (hy : v.cursorY = row + cur' / 80)
    (hle : cur' / 80 ≤ last) : OnTape v row cells cur' last := by
  refine ⟨hg, hv ▸ h.view, hv ▸ h.top, hx, hy, hle, hv ▸ h.shown, fun n hn => ?_, ?_⟩
  · rw [charAt, hb]
    exact h.holds n hn
  · rw [hv]
    exact h.below

lemma OnTape.up (d : Bool) (hn : 0 < n) (hc : n ≤ cur / 80) :
    OnTape (printOn d t (csiSequence n 'A')) row cells (cur - 80 * n) last := by
  have := h.view
  have := h.top
  have := h.shown
  have hle := h.le_last
  have hcy := h.cursorY
  obtain ⟨u, cells', hu, hux, huy, hub, hr⟩ := csi_run t d n 'A' (by omega) (by decide)
  rw [hr]
  refine h.moved rfl hu hub ?_ ?_ (by omega)
  · change u.cursorX = _
    rw [hux, h.cursorX]
    omega
  · change u.rowUp (orOne n) = _
    rw [rowUp, orOne_of_pos hn, huy, hu, hcy, u32_of_lt (by omega)]
    split_ifs
    · rw [u32]
      omega
    · omega

lemma OnTape.down (d : Bool) (hn : 0 < n) (hc : cur / 80 + n ≤ last) :
    OnTape (printOn d t (csiSequence n 'B')) row cells (cur + 80 * n) last := by
  have := h.view
  have hs := h.shown
  have hcy := h.cursorY
  obtain ⟨u, cells', hu, hux, huy, hub, hr⟩ := csi_run t d n 'B' (by omega) (by decide)
  rw [hr]
  refine h.moved rfl hu hub ?_ ?_ (by omega)
  · change u.cursorX = _
    rw [hux, h.cursorX]
    omega
  · change (if u32 (u.cursorY + orOne n) < u32 (u.viewOffset + termRows - 1) then
      u32 (u.cursorY + orOne n) else u32 (u.viewOffset + termRows - 1)) = _
    have hb : u32 (u.viewOffset + termRows - 1) = t.viewOffset + 23 := by
      rw [hu, termRows, vgaHeight, u32_of_lt (by omega)]
      omega
    rw [hb, orOne_of_pos hn, huy, u32_of_lt (by omega), hcy]
    split_ifs <;> omega

lemma OnTape.home (d : Bool) :
    OnTape (printOn d t (csiSequence 80 'D')) row cells (cur - cur % 80) last := by
  obtain ⟨u, cells', hu, hux, huy, hub, hr⟩ := csi_run t d 80 'D' (by omega) (by decide)
  have hc := h.cursorX
  have hle := h.le_last
  rw [hr]
  refine h.moved rfl hu hub ?_ ?_ (by omega)
  · change (if u.cursorX > orOne 80 then u.cursorX - orOne 80 else 0) = _
    rw [show orOne 80 = 80 from rfl, if_neg (by omega)]
    omega
  · change u.cursorY = _
    rw [huy, h.cursorY]
    omega

lemma OnTape.forward (d : Bool) (hn : 0 < n) (hro : cur % 80 + n < 80) :
    OnTape (printOn d t (csiSequence n 'C')) row cells (cur + n) last := by
  obtain ⟨u, cells', hu, hux, huy, hub, hr⟩ := csi_run t d n 'C' (by omega) (by decide)
  rw [hr]
  have hle := h.le_last
  refine h.moved rfl hu hub ?_ ?_ (by omega)
  · change (if u32 (u.cursorX + orOne n) < vgaWidth then u32 (u.cursorX + orOne n)
      else vgaWidth - 1) = _
    rw [orOne_of_pos hn, hux, h.cursorX, u32_of_lt (by omega), vgaWidth, if_pos (by omega)]
    omega
  · change u.cursorY = _
    rw [huy, h.cursorY]
    omega

lemma OnTape.erase (d : Bool) :
    OnTape (printOn d t (csiSequence 0 'J')) row
      (fun n => if cur ≤ n then 32 else cells n) cur last := by
  obtain ⟨u, cells', hu, hux, huy, hub, hr⟩ := csi_run t d 0 'J' (by omega) (by decide)
  have hv := h.view
  have htop := h.top
  have hs := h.shown
  have hle := h.le_last
  have hb : u32 (u.viewOffset + termRows - 1) = t.viewOffset + 23 := by
    rw [hu, termRows, vgaHeight, u32_of_lt (by omega)]
    omega
  have hc : u.readParams.command (ascii 'J') 0 (u.param 1) =
      u.readParams.clearSpan t.cursorY t.cursorX (t.viewOffset + 23) 79 := by
    change u.readParams.clearSpan u.cursorY u.cursorX (u32 (u.viewOffset + termRows - 1)) 79 = _
    rw [huy, hux, hb]
  have hd := clearSpan_draws (t := u.readParams) t.cursorY t.cursorX (t.viewOffset + 23) 79
  have hbu := clearSpan_buffer u.readParams t.cursorY t.cursorX (t.viewOffset + 23) 79
  have hbl := blank_char u.readParams
  rw [hr, hc]
  generalize u.readParams.clearSpan t.cursorY t.cursorX (t.viewOffset + 23) 79 = w at hd hbu ⊢
  have hw : w.viewOffset = t.viewOffset := hd.viewOffset.trans hu
  have hwx : w.cursorX = t.cursorX := by
    rw [hd.same]
    exact hux
  have hwy : w.cursorY = t.cursorY := by
    rw [hd.same]
    exact huy
  refine ⟨rfl, hw ▸ hv, hw ▸ htop, hwx.trans h.cursorX, hwy.trans h.cursorY, hle, hw ▸ hs,
    fun n hn => ?_, fun n hn => ?_⟩
  · change w.buffer _ _ % 256 = _
    have hce := hbu (row + n / 80) (n % 80)
    rw [h.cursorY, h.cursorX] at hce
    rw [hce]
    -- a cell after the cursor is blanked, or it is below the screen
    by_cases hcu : cur ≤ n
    · rw [if_pos hcu]
      by_cases hi : row + n / 80 ≤ t.viewOffset + 23
      · rw [if_pos, hbl]
        refine ⟨by omega, hi, by rw [maxScroll]; omega, ?_, ?_, Nat.mod_lt _ (by decide)⟩
        · split_ifs <;> omega
        · split_ifs
          · omega
          · rw [vgaWidth]
            omega
      · rw [if_neg (by omega)]
        change u.buffer _ _ % 256 = 32
        rw [hub]
        exact (h.holds n hn).trans (h.below n (by omega))
    · rw [if_neg hcu, if_neg]
      · change u.buffer _ _ % 256 = _
        rw [hub]
        exact h.holds n hn
      · rintro ⟨hge, -, -, hco, -⟩
        split_ifs at hco <;> omega
  · split_ifs
    · rfl
    · exact h.below n (by rw [← hw]; exact hn)

end

end Sequences

end EsdumanOS
