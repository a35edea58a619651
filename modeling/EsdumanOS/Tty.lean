import EsdumanOS.Base
import EsdumanOS.Lib.Runs

/-!
# The terminal

`tty.c`: a screen of 24 rows over a buffer of 100, written byte by byte through an escape parser.
`size_t` and `uint32_t` are both 32 bits wide. `cells` and `slots` record the elements of `buffer`
and of `esc_params` that have been read or written.
-/

namespace EsdumanOS

open Lib Function List

def vgaWidth : ℕ := 80
def vgaHeight : ℕ := 25
def maxScroll : ℕ := 100
def termRows : ℕ := vgaHeight - 1
def escMaxParams : ℕ := 8

inductive EscState
  | ground | esc | csi
  deriving DecidableEq

structure Term where
  cursorX : ℕ
  cursorY : ℕ
  viewOffset : ℕ
  color : ℕ
  escState : EscState
  escParams : ℕ → ℕ
  escParamCount : ℕ
  savedX : ℕ
  savedY : ℕ
  scrollTop : ℕ
  scrollBottom : ℕ
  buffer : ℕ → ℕ → ℕ
  cells : List (ℕ × ℕ)
  slots : List ℕ

def vgaEntryColor (fg bg : ℕ) : ℕ := (fg ||| bg * 16) % 256

def vgaEntry (c color : ℕ) : ℕ := c ||| color * 256

def vgaLightGrey : ℕ := 7
def vgaBlack : ℕ := 0

/-- A terminal as `terminal_initialize` leaves it. -/
def Term.init : Term where
  cursorX := 0
  cursorY := 0
  viewOffset := 0
  color := vgaEntryColor vgaLightGrey vgaBlack
  escState := .ground
  escParams := fun _ => 0
  escParamCount := 0
  savedX := 0
  savedY := 0
  scrollTop := 1
  scrollBottom := termRows
  buffer := fun _ _ => vgaEntry 32 (vgaEntryColor vgaLightGrey vgaBlack)
  cells := []
  slots := []

namespace Term

variable (t : Term)

/-- `buffer[y][x] = v`. -/
def put (y x v : ℕ) : Term :=
  { t with
    buffer := update t.buffer y (update (t.buffer y) x v)
    cells := (y, x) :: t.cells }

/-- A read of `buffer[y][x]`. -/
def look (y x : ℕ) : Term := { t with cells := (y, x) :: t.cells }

def blank : ℕ := vgaEntry 32 t.color

/-- `buffer[y][x] = buffer[from][x]` along the row. -/
def copyRow (y src : ℕ) : Term :=
  (range vgaWidth).foldl (fun t x => (t.look src x).put y x (t.buffer src x)) t

/-- Blanks from column `x0` to column `x1` of row `y`. -/
def clearRow (y x0 x1 : ℕ) : Term :=
  (range' x0 (min (x1 + 1) vgaWidth - x0)).foldl (fun t x => t.put y x t.blank) t

def clearSpan (fromY fromX toY toX : ℕ) : Term :=
  (range' fromY (min (toY + 1) maxScroll - fromY)).foldl (fun t y =>
    t.clearRow y (if y = fromY then fromX else 0) (if y = toY then toX else vgaWidth - 1)) t

def updateScreen : Term :=
  (range termRows).foldl (fun t y =>
    (range vgaWidth).foldl (fun t x => t.look (t.viewOffset + y) x) t) t

/-- `term_refresh`: while refreshing is deferred it is only noted. -/
def refresh (deferred : Bool) : Term := if deferred then t else t.updateScreen

def shown (y : ℕ) : Bool := decide (t.viewOffset ≤ y ∧ y < t.viewOffset + (vgaHeight - 1))

def orOne (n : ℕ) : ℕ := if n = 0 then 1 else n

def rowToBuffer (row : ℕ) : ℕ :=
  let row := if row < 1 then 1 else row
  let row := if row > termRows then termRows else row
  u32 (t.viewOffset + (row - 1))

def regionTop : ℕ := t.rowToBuffer t.scrollTop
def regionBottom : ℕ := t.rowToBuffer t.scrollBottom

/-- The number of lines `term_insert_lines` and `term_delete_lines` move. -/
def lineCount (n : ℕ) : ℕ :=
  if orOne n > t.regionBottom - t.cursorY + 1 then t.regionBottom - t.cursorY + 1 else orOne n

def insertLines (n : ℕ) : Term :=
  let top := t.cursorY
  let bot := t.regionBottom
  if top < t.regionTop ∨ top > bot then t
  else
    let n := t.lineCount n
    let t := (range' (top + n) (bot + 1 - (top + n))).reverse.foldl
      (fun t y => t.copyRow y (y - n)) t
    t.clearSpan top 0 (top + n - 1) (vgaWidth - 1)

def deleteLines (n : ℕ) : Term :=
  let top := t.cursorY
  let bot := t.regionBottom
  if top < t.regionTop ∨ top > bot then t
  else
    let n := t.lineCount n
    let t := (range' top (bot + 1 - n - top)).foldl (fun t y => t.copyRow y (y + n)) t
    t.clearSpan (bot + 1 - n) 0 bot (vgaWidth - 1)

def ansiToVga : List ℕ := [0, 4, 2, 6, 1, 5, 3, 7]

def sgrParam (c : ℕ × ℕ) (p : ℕ) : ℕ × ℕ :=
  if p = 0 then (vgaLightGrey, vgaBlack)
  else if p = 1 then (c.1 ||| 8, c.2)
  else if p = 22 then (c.1 &&& 0xF7, c.2)
  else if 30 ≤ p ∧ p ≤ 37 then (c.1 &&& 8 ||| ansiToVga.getD (p - 30) 0, c.2)
  else if 40 ≤ p ∧ p ≤ 47 then (c.1, ansiToVga.getD (p - 40) 0)
  else if 90 ≤ p ∧ p ≤ 97 then (ansiToVga.getD (p - 90) 0 ||| 8, c.2)
  else c

def applySgr : Term :=
  let count := orOne t.escParamCount
  let c := (range count).foldl (fun c i => sgrParam c (t.escParams i))
    (t.color &&& 15, t.color / 16 &&& 15)
  { t with color := vgaEntryColor c.1 c.2, slots := range count ++ t.slots }

def param (i : ℕ) : ℕ := if i < t.escParamCount then t.escParams i else 0

/-- The parameters `terminal_csi_dispatch` reads first. -/
def readParams : Term :=
  { t with slots := (range 2).filter (· < t.escParamCount) ++ t.slots }

def rowUp (n : ℕ) : ℕ :=
  if t.cursorY > u32 (t.viewOffset + n) then u32 (t.cursorY + 2 ^ 32 - n) else t.viewOffset

/-- The switch of `terminal_csi_dispatch`, with the first two parameters. -/
def command (final : UInt8) (p0 p1 : ℕ) : Term :=
  let top := t.viewOffset
  let bottom := u32 (top + termRows - 1)
  match Char.ofNat final.toNat with
  | 'H' | 'f' =>
    let x := orOne p1 - 1
    { t with
      cursorY := t.rowToBuffer (orOne p0)
      cursorX := if x ≥ vgaWidth then vgaWidth - 1 else x }
  | 'A' => { t with cursorY := t.rowUp (orOne p0) }
  | 'B' =>
    let y := u32 (t.cursorY + orOne p0)
    { t with cursorY := if y < bottom then y else bottom }
  | 'C' =>
    let x := u32 (t.cursorX + orOne p0)
    { t with cursorX := if x < vgaWidth then x else vgaWidth - 1 }
  | 'D' => { t with cursorX := if t.cursorX > orOne p0 then t.cursorX - orOne p0 else 0 }
  | 'J' =>
    if p0 = 1 then t.clearSpan top 0 t.cursorY t.cursorX
    else if p0 = 2 then t.clearSpan top 0 bottom (vgaWidth - 1)
    else t.clearSpan t.cursorY t.cursorX bottom (vgaWidth - 1)
  | 'K' =>
    if p0 = 1 then t.clearSpan t.cursorY 0 t.cursorY t.cursorX
    else if p0 = 2 then t.clearSpan t.cursorY 0 t.cursorY (vgaWidth - 1)
    else t.clearSpan t.cursorY t.cursorX t.cursorY (vgaWidth - 1)
  | 'm' => t.applySgr
  | 's' => { t with savedX := t.cursorX, savedY := t.cursorY }
  | 'u' => { t with cursorX := t.savedX, cursorY := t.savedY }
  | 'r' =>
    let top := orOne p0
    let bottom := if p1 = 0 then termRows else p1
    let bottom := if bottom > termRows then termRows else bottom
    let region := if top ≥ bottom then (1, termRows) else (top, bottom)
    { t with
      scrollTop := region.1
      scrollBottom := region.2
      cursorY := t.rowToBuffer region.1
      cursorX := 0 }
  | 'L' => t.insertLines p0
  | 'M' => t.deleteLines p0
  | _ => t

def csiDispatch (final : UInt8) : Term :=
  t.readParams.command final (t.param 0) (t.param 1)

/-- What `terminal_escape_feed` answers. -/
inductive Taken
  | ordinary | consumed | completed
  deriving DecidableEq

def escapeFeed (c : UInt8) : Taken × Term :=
  if c < 0x20 then (.ordinary, { t with escState := .ground })
  else if t.escState = .esc then
    if c = 0x5B then
      (.consumed, { t with
        escState := .csi
        escParamCount := 0
        escParams := update t.escParams 0 0
        slots := 0 :: t.slots })
    else (.consumed, { t with escState := .ground })
  else if 0x30 ≤ c ∧ c ≤ 0x39 then
    let count := orOne t.escParamCount
    if count ≤ escMaxParams then
      (.consumed, { t with
        escParamCount := count
        escParams := update t.escParams (count - 1)
          (u32 (t.escParams (count - 1) * 10 + (c.toNat - 0x30)))
        slots := (count - 1) :: t.slots })
    else (.consumed, { t with escParamCount := count })
  else if c = 0x3B then
    let count := orOne t.escParamCount
    if count < escMaxParams then
      (.consumed, { t with
        escParamCount := count + 1
        escParams := update t.escParams count 0
        slots := count :: t.slots })
    else (.consumed, { t with escParamCount := count })
  else (.completed, { t.csiDispatch c with escState := .ground })

/-- `\b`. -/
def backspace : Term :=
  let t :=
    if t.cursorX > 0 then { t with cursorX := t.cursorX - 1 }
    else if t.cursorY > 0 then { t with cursorY := t.cursorY - 1, cursorX := vgaWidth - 1 }
    else t
  let t := t.put t.cursorY t.cursorX t.blank
  if t.shown t.cursorY then t.look t.cursorY t.cursorX else t

/-- An ordinary byte other than `\b`: the cell is written and the cursor moves on. -/
def advance (c : UInt8) : Term :=
  if c = 0x0A then { t with cursorX := 0, cursorY := u32 (t.cursorY + 1) }
  else
    let t := t.put t.cursorY t.cursorX (vgaEntry c.toNat t.color)
    let t := if t.shown t.cursorY then t.look t.cursorY t.cursorX else t
    let x := u32 (t.cursorX + 1)
    if x ≥ vgaWidth then { t with cursorX := 0, cursorY := u32 (t.cursorY + 1) }
    else { t with cursorX := x }

def scroll : Term :=
  if t.cursorY ≥ maxScroll then
    let t := (range' 1 (maxScroll - 1)).foldl (fun t y => t.copyRow (y - 1) y) t
    let t := t.clearRow (maxScroll - 1) 0 (vgaWidth - 1)
    { t with cursorY := maxScroll - 1 }
  else t

def follow : Term :=
  if t.cursorY > u32 (t.viewOffset + (termRows - 1)) then
    { t with viewOffset := t.cursorY - (termRows - 1) }
  else if t.cursorY < t.viewOffset then { t with viewOffset := t.cursorY }
  else t

/-- `terminal_putchar_on` past the escape parser. -/
def ordinary (c : UInt8) (deferred : Bool) : Term :=
  if c = 0x08 then t.backspace
  else
    let t' := (t.advance c).scroll
    let redraw :=
      decide ((t.advance c).cursorY ≥ maxScroll) || decide (t'.follow.viewOffset ≠ t.viewOffset)
    if redraw then t'.follow.refresh deferred else t'.follow

/-- `terminal_putchar`; whether refreshing is deferred is up to the caller. -/
def putchar (c : UInt8) (deferred : Bool) : Term :=
  if c = 0x1B then { t with escState := .esc }
  else if t.escState ≠ .ground then
    match t.escapeFeed c with
    | (.completed, t) => t.refresh deferred
    | (.consumed, t) => t
    | (.ordinary, t) => t.ordinary c deferred
  else t.ordinary c deferred

end Term

def termStep (t : Term) (call : UInt8 × Bool) : Term := t.putchar call.1 call.2

def termRun (t : Term) (calls : List (UInt8 × Bool)) : Term := calls.foldl termStep t

/-- Cursor, view, region and parameters are in range, and so is everything that has been
accessed. -/
structure TermInRange (t : Term) : Prop where
  cursorX : t.cursorX < 80
  cursorY : t.cursorY < maxScroll
  viewOffset : t.viewOffset ≤ 76
  region : 1 ≤ t.scrollTop ∧ t.scrollTop < t.scrollBottom ∧ t.scrollBottom ≤ 24
  escParamCount : t.escParamCount ≤ 8
  cells : ∀ c ∈ t.cells, c.1 < maxScroll ∧ c.2 < vgaWidth
  slots : ∀ i ∈ t.slots, i < escMaxParams

def Term.row (t : Term) (y : ℕ) : List ℕ := (range vgaWidth).map (t.buffer y)

/-- The rows from the cursor's to the last of the region. -/
def Term.rowsBelow (t : Term) : List (List ℕ) :=
  (range' t.cursorY (t.regionBottom + 1 - t.cursorY)).map t.row

/-- A byte that completes a CUU sequence of `n` rows finds that `view_offset + n` does not wrap,
that it wraps to the cursor's row or a later one, or that `cursor_y - n` wraps to a row of the
buffer. -/
def UpInBuffer (t : Term) (call : UInt8 × Bool) : Prop :=
  t.escState = .csi → call.1 = 0x41 →
    t.viewOffset + Term.orOne (t.param 0) < 2 ^ 32 ∨
    t.cursorY + 2 ^ 32 ≤ t.viewOffset + Term.orOne (t.param 0) ∨
    t.cursorY + 2 ^ 32 < maxScroll + Term.orOne (t.param 0)

instance (t : Term) (call : UInt8 × Bool) : Decidable (UpInBuffer t call) :=
  inferInstanceAs (Decidable (_ → _ → _ ∨ _ ∨ _))

end EsdumanOS
