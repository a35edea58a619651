import EsdumanOS.Shadow
import EsdumanOS.Tty

/-!
# The line editor of the shell

The prompt and the read loop of `sh.c`. The shell keeps the line, the position in it and the cell of
the cursor, counted from the start of the prompt; what it prints goes through the terminal. Tab and
the keys that end a line are left out.
-/

namespace EsdumanOS

open Lib

def shellCols : ℕ := 80

/-- The pieces of the prompt that are not fixed. -/
structure Prompt where
  username : List UInt8
  hostname : List UInt8
  path : List UInt8
  root : Bool
  deriving DecidableEq, Repr

/-- What `print_prompt` prints. -/
def Prompt.text (p : Prompt) : List UInt8 :=
  p.username ++ asciiText "@" ++ p.hostname ++ asciiText " " ++ p.path ++
    if p.root then asciiText " # " else asciiText " $ "

def ansiMove (n : ℤ) (dir : Char) : List UInt8 :=
  if n ≤ 0 then [] else 0x1B :: ascii '[' :: decDigits 10 n.toNat ++ [ascii dir]

/-- `"\033[J"`. -/
def eraseBelow : List UInt8 := [0x1B, ascii '[', ascii 'J']

/-- `cmd_buf`, `pos`, `line_cell` and `prompt_w`, and the history, the most recent line first. -/
structure LineEd where
  prompt : Prompt
  line : List UInt8
  pos : ℕ
  lineCell : ℕ
  promptW : ℕ
  history : List (List UInt8)
  histView : ℕ
  histSaved : List UInt8
  deriving DecidableEq, Repr

namespace LineEd

variable (s : LineEd)

def printPrompt : List UInt8 × LineEd :=
  (s.prompt.text, { s with promptW := s.prompt.text.length, lineCell := s.prompt.text.length })

def cursorToCell (cell : ℕ) : List UInt8 × LineEd :=
  let rows : ℤ := (cell / shellCols : ℕ) - (s.lineCell / shellCols : ℕ)
  let vertical :=
    if rows < 0 then ansiMove (-rows) 'A'
    else if rows > 0 then ansiMove rows 'B'
    else []
  (vertical ++ ansiMove shellCols 'D' ++ ansiMove (cell % shellCols : ℕ) 'C',
    { s with lineCell := cell })

def lineRedrawTail : List UInt8 × LineEd :=
  let r := { s with lineCell := s.promptW + s.line.length }.cursorToCell (s.promptW + s.pos)
  (s.line.drop s.pos ++ eraseBelow ++ r.1, r.2)

def lineRefresh : List UInt8 × LineEd :=
  let home := s.cursorToCell 0
  let prompt := home.2.printPrompt
  let r := { prompt.2 with lineCell := prompt.2.promptW + s.line.length }.cursorToCell
    (prompt.2.promptW + s.pos)
  (home.1 ++ prompt.1 ++ s.line ++ eraseBelow ++ r.1, r.2)

def historyAt (back : ℕ) : Option (List UInt8) :=
  if back < 1 then none else s.history[back - 1]?

def showHistory : List UInt8 × LineEd :=
  let line := if s.histView = 0 then s.histSaved else (s.historyAt s.histView).getD []
  { s with line := line.take 254, pos := (line.take 254).length }.lineRefresh

end LineEd

/-- A key of the read loop: a byte that is not a control character, or one of the others. -/
inductive LineKey
  | char (c : UInt8)
  | left | right | home | last | delete | backspace | up | down
  deriving DecidableEq, Repr

/-- One round of the read loop: what is printed, and the line editor afterwards. -/
def LineEd.key (s : LineEd) : LineKey → List UInt8 × LineEd
  | .left =>
    if 0 < s.pos then { s with pos := s.pos - 1 }.cursorToCell (s.promptW + (s.pos - 1))
    else ([], s)
  | .right =>
    if s.pos < s.line.length then
      { s with pos := s.pos + 1 }.cursorToCell (s.promptW + (s.pos + 1))
    else ([], s)
  | .home => { s with pos := 0 }.cursorToCell s.promptW
  | .last => { s with pos := s.line.length }.cursorToCell (s.promptW + s.line.length)
  | .delete =>
    if s.pos < s.line.length then { s with line := s.line.eraseIdx s.pos }.lineRedrawTail
    else ([], s)
  | .up =>
    if s.histView < s.history.length then
      { s with
        histSaved := if s.histView = 0 then s.line.take 254 else s.histSaved
        histView := s.histView + 1 }.showHistory
    else ([], s)
  | .down => if 0 < s.histView then { s with histView := s.histView - 1 }.showHistory else ([], s)
  | .backspace =>
    if 0 < s.pos then
      let s' := { s with line := s.line.eraseIdx (s.pos - 1), pos := s.pos - 1 }
      let r := s'.cursorToCell (s.promptW + (s.pos - 1))
      (r.1 ++ r.2.lineRedrawTail.1, r.2.lineRedrawTail.2)
    else ([], s)
  | .char c =>
    if 32 ≤ c ∧ c ≤ 126 ∧ s.line.length < 254 then
      let s' := { s with
        line := s.line.insertIdx s.pos c, pos := s.pos + 1, lineCell := s.lineCell + 1 }
      (c :: s'.lineRedrawTail.1, s'.lineRedrawTail.2)
    else ([], s)

structure LineSys where
  ed : LineEd
  term : Term

/-- The bytes of a `printk`, one `terminal_putchar` after the other. -/
def printOn (deferred : Bool) (t : Term) (bytes : List UInt8) : Term :=
  termRun t (bytes.map fun c => (c, deferred))

def lineStep (deferred : Bool) (s : LineSys) (k : LineKey) : LineSys :=
  ⟨(s.ed.key k).2, printOn deferred s.term (s.ed.key k).1⟩

def lineRun (deferred : Bool) (s : LineSys) (keys : List LineKey) : LineSys :=
  keys.foldl (lineStep deferred) s

def startLine (deferred : Bool) (prompt : Prompt) (history : List (List UInt8)) (t : Term) :
    LineSys :=
  let r := LineEd.printPrompt ⟨prompt, [], 0, 0, 0, history, 0, []⟩
  ⟨r.2, printOn deferred t r.1⟩

def Term.charAt (t : Term) (y x : ℕ) : ℕ := t.buffer y x % 256

/-- The screen and the line editor agree, with the prompt starting in row `row` of the buffer. -/
structure LineShown (s : LineSys) (row : ℕ) : Prop where
  width : s.ed.promptW = s.ed.prompt.text.length
  top : s.term.viewOffset ≤ row
  cursorX : s.term.cursorX = (s.ed.promptW + s.ed.pos) % 80
  cursorY : s.term.cursorY = row + (s.ed.promptW + s.ed.pos) / 80
  onScreen : s.term.cursorY < s.term.viewOffset + termRows
  shows : ∀ n, (h : n < (s.ed.prompt.text ++ s.ed.line).length) →
    row + n / 80 < s.term.viewOffset + termRows ∧
      s.term.charAt (row + n / 80) (n % 80) = ((s.ed.prompt.text ++ s.ed.line).get ⟨n, h⟩).toNat
  blank : ∀ n, (s.ed.prompt.text ++ s.ed.line).length ≤ n →
    row + n / 80 < s.term.viewOffset + termRows → s.term.charAt (row + n / 80) (n % 80) = 32

def LineEd.Fits (s : LineEd) : Prop := s.prompt.text.length + s.line.length < 24 * 80

instance (s : LineEd) : Decidable s.Fits := inferInstanceAs (Decidable (_ < _))

/-- A byte that the terminal shows in a cell: not `\b`, `\n` or the start of a sequence. -/
def FillsCell (c : UInt8) : Prop := c ≠ 0x08 ∧ c ≠ 0x0A ∧ c ≠ 0x1B

instance (c : UInt8) : Decidable (FillsCell c) := inferInstanceAs (Decidable (_ ∧ _))

def TypedLine (line : List UInt8) : Prop := line.length ≤ 254 ∧ ∀ c ∈ line, 32 ≤ c ∧ c ≤ 126

instance (line : List UInt8) : Decidable (TypedLine line) := inferInstanceAs (Decidable (_ ∧ _))

/-- The cursor is in the first column, in a row of the buffer, and no sequence has been begun. -/
structure Term.AtColumnZero (t : Term) : Prop where
  ground : t.escState = .ground
  cursorX : t.cursorX = 0
  cursorY : t.cursorY < maxScroll
  viewOffset : t.viewOffset ≤ 76

def Term.BlankBelow (t : Term) : Prop :=
  ∀ y x, t.cursorY ≤ y → y < maxScroll → x < vgaWidth → t.charAt y x = 32

end EsdumanOS
