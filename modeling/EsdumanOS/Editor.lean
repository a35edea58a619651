import EsdumanOS.EditBuf
import EsdumanOS.Lib.Runs
import EsdumanOS.Shadow

/-!
# The editor

`edit.c`: the keys of its two modes, the lines typed after `:` and `/`, loading and saving, over the
results of the system calls. Beside it stands the disk: a file is replaced when its descriptor is
closed.
-/

namespace EsdumanOS

open Lib

namespace EditBuf

variable (b : EditBuf)

def ebCol (off : ℕ) : ℕ := off - b.ebLineStart off

def ebNextLine (off : ℕ) : Option ℕ :=
  if b.data.length ≤ b.ebLineEnd off then none else some (b.ebLineEnd off + 1)

def ebPrevLine (off : ℕ) : Option ℕ :=
  if b.ebLineStart off = 0 then none else some (b.ebLineStart (b.ebLineStart off - 1 : ℕ))

def ebClampToLine (lineStart col : ℕ) : ℕ :=
  if lineStart + col > b.ebLineEnd lineStart then b.ebLineEnd lineStart else lineStart + col

/-- The loop of `eb_goto_line`. -/
def gotoLineFrom : ℕ → ℕ → ℕ
  | 0, off => off
  | n + 1, off =>
    match b.ebNextLine off with
    | none => off
    | some next => gotoLineFrom n next

def ebGotoLine (n : ℤ) : ℕ := b.gotoLineFrom (n - 1).toNat 0

def ebMatchAt (pat : List UInt8) (off : ℕ) : Bool := pat.isPrefixOf (b.data.drop off)

def ebFindNext (pat : List UInt8) (start : ℕ) : Option ℕ :=
  if pat.length = 0 ∨ b.data.length < pat.length then none
  else
    let start := min start b.data.length
    match firstIdx (fun off => decide (start < off) && b.ebMatchAt pat off)
        (b.data.length + 1 - pat.length) with
    | some off => some off
    | none => firstIdx (b.ebMatchAt pat) (min (start + 1) (b.data.length + 1 - pat.length))

def ebFindPrev (pat : List UInt8) (start : ℕ) : Option ℕ :=
  if pat.length = 0 ∨ b.data.length < pat.length then none
  else
    let start := min start b.data.length
    match lastIdx (b.ebMatchAt pat) start with
    | some off => some off
    | none => lastIdx (fun off => decide (start ≤ off) && b.ebMatchAt pat off)
        (b.data.length + 1 - pat.length)

end EditBuf

/-- The calls of `editbuf.h` on a log that may be missing. -/
def undoInsert (b : EditBuf) (u : Option EbUndo) (off : ℕ) (c : UInt8) (cursor : ℕ) :
    Bool × EditBuf × Option EbUndo :=
  match u with
  | none => ((b.ebInsert off c).1, (b.ebInsert off c).2, none)
  | some u => let r := ebUndoInsert b u off c cursor; (r.1, r.2.1, some r.2.2)

@[inherit_doc undoInsert]
def undoDelete (b : EditBuf) (u : Option EbUndo) (off : ℤ) (cursor : ℕ) :
    Bool × EditBuf × Option EbUndo :=
  match u with
  | none => ((b.ebDelete off).1, (b.ebDelete off).2, none)
  | some u => let r := ebUndoDelete b u off cursor; (r.1, r.2.1, some r.2.2)

@[inherit_doc undoInsert]
def undoDeleteLine (b : EditBuf) (u : Option EbUndo) (off cursor : ℕ) :
    ℕ × EditBuf × Option EbUndo :=
  match u with
  | none => ((b.ebDeleteLine off).1, (b.ebDeleteLine off).2, none)
  | some u => let r := ebUndoDeleteLine b u off cursor; (r.1, r.2.1, some r.2.2)

@[inherit_doc undoInsert]
def undoApply (b : EditBuf) (u : Option EbUndo) : ℤ × EditBuf × Option EbUndo :=
  match u with
  | none => (-1, b, none)
  | some u => let r := ebUndoApply b u; (r.1, r.2.1, some r.2.2)

def kUp : ℕ := 1000
def kDown : ℕ := 1001
def kLeft : ℕ := 1002
def kRight : ℕ := 1003
def kHome : ℕ := 1004
def kEnd : ℕ := 1005
def kDel : ℕ := 1006
def kPgup : ℕ := 1007
def kPgdn : ℕ := 1008
def kNone : ℕ := 1009
def kEsc : ℕ := 27
def kEnter : ℕ := 10
def kReturn : ℕ := 13
def kBackspace : ℕ := 8

def editMaxBytes : ℕ := 65536
def editRows : ℕ := 23

inductive Lead
  | colon | slash
  deriving DecidableEq, Repr

/-- The statics of `edit.c` and what counts as saved. `prompt` is the line typed in
`read_prompt_line`. -/
structure Editor where
  buf : EditBuf
  undo : Option EbUndo
  filename : List UInt8
  cursor : ℕ
  wantCol : ℕ
  insertMode : Bool
  dirty : Bool
  quitting : Bool
  lastPattern : List UInt8
  pendingG : Bool
  pendingD : Bool
  prompt : Option (Lead × List UInt8)
  deriving DecidableEq, Repr

namespace Editor

variable (s : Editor)

def moveLine (down : Bool) : Editor :=
  match if down then s.buf.ebNextLine s.cursor else s.buf.ebPrevLine s.cursor with
  | none => s
  | some target => { s with cursor := s.buf.ebClampToLine target s.wantCol }

def moveTo (cursor : ℕ) : Editor :=
  { s with cursor := cursor, wantCol := s.buf.ebCol cursor }

def enterInsert : Editor :=
  { s with undo := s.undo.map EbUndo.ebUndoGroup, insertMode := true }

def insertAt (c : UInt8) (advance : ℕ) : Editor :=
  let r := undoInsert s.buf s.undo s.cursor c s.cursor
  let s := { s with buf := r.2.1, undo := r.2.2 }
  if r.1 then { s with cursor := s.cursor + advance, dirty := true } else s

def deleteAt (off : ℤ) (back : ℕ) : Editor :=
  let r := undoDelete s.buf s.undo off s.cursor
  let s := { s with buf := r.2.1, undo := r.2.2 }
  if r.1 then { s with cursor := s.cursor - back, dirty := true } else s

def undoKey : Editor :=
  let r := undoApply s.buf s.undo
  let s := { s with buf := r.2.1, undo := r.2.2 }
  if r.1 < 0 then s
  else
    let s := s.moveTo (min r.1.toNat s.buf.data.length)
    { s with dirty := true, undo := s.undo.map fun u => { u with lost := false } }

def searchStep (forward : Bool) : Editor :=
  if s.lastPattern = [] then s
  else
    match if forward then s.buf.ebFindNext s.lastPattern s.cursor
        else s.buf.ebFindPrev s.lastPattern s.cursor with
    | none => s
    | some found => s.moveTo found

def movePage (down : Bool) : ℕ → Editor → Editor
  | 0, s => s
  | n + 1, s => movePage down n (s.moveLine down)

/-- `normal_key`. The keys `:` and `/` start a line on the status row. -/
def normalKey (k : ℕ) : Editor :=
  let wasG := s.pendingG
  let wasD := s.pendingD
  let s := { s with pendingG := false, pendingD := false }
  if k = 'h'.toNat ∨ k = kLeft then
    if 0 < s.cursor ∧ 0 < s.buf.ebCol s.cursor then s.moveTo (s.cursor - 1) else s.moveTo s.cursor
  else if k = 'l'.toNat ∨ k = kRight then
    if s.cursor < s.buf.ebLineEnd s.cursor then s.moveTo (s.cursor + 1) else s.moveTo s.cursor
  else if k = 'j'.toNat ∨ k = kDown then s.moveLine true
  else if k = 'k'.toNat ∨ k = kUp then s.moveLine false
  else if k = '0'.toNat ∨ k = kHome then
    { s with cursor := s.buf.ebLineStart s.cursor, wantCol := 0 }
  else if k = '$'.toNat ∨ k = kEnd then s.moveTo (s.buf.ebLineEnd s.cursor)
  else if k = kPgdn then movePage true (editRows - 1) s
  else if k = kPgup then movePage false (editRows - 1) s
  else if k = 'g'.toNat then
    if wasG then { s with cursor := 0, wantCol := 0 } else { s with pendingG := true }
  else if k = 'G'.toNat then
    { s with cursor := s.buf.ebLineStart s.buf.data.length, wantCol := 0 }
  else if k = 'i'.toNat then s.enterInsert
  else if k = 'a'.toNat then
    if s.cursor < s.buf.ebLineEnd s.cursor then { s with cursor := s.cursor + 1 }.enterInsert
    else s.enterInsert
  else if k = 'A'.toNat then { s with cursor := s.buf.ebLineEnd s.cursor }.enterInsert
  else if k = 'o'.toNat then
    { s.enterInsert with cursor := s.buf.ebLineEnd s.cursor }.insertAt newline 1
  else if k = 'O'.toNat then
    { s.enterInsert with cursor := s.buf.ebLineStart s.cursor }.insertAt newline 0
  else if k = 'x'.toNat ∨ k = kDel then
    let s := { s with undo := s.undo.map EbUndo.ebUndoGroup }
    if s.cursor < s.buf.ebLineEnd s.cursor then s.deleteAt s.cursor 0 else s
  else if k = 'd'.toNat then
    if wasD then
      let r := undoDeleteLine s.buf (s.undo.map EbUndo.ebUndoGroup) s.cursor s.cursor
      { s with cursor := r.1, buf := r.2.1, undo := r.2.2, wantCol := 0, dirty := true }
    else { s with pendingD := true }
  else if k = 'u'.toNat then s.undoKey
  else if k = '/'.toNat then { s with prompt := some (.slash, []) }
  else if k = 'n'.toNat then s.searchStep true
  else if k = 'N'.toNat then s.searchStep false
  else if k = ':'.toNat then { s with prompt := some (.colon, []) }
  else s

def insertKey (k : ℕ) : Editor :=
  if k = kEsc then
    let s := { s with insertMode := false }
    if 0 < s.buf.ebCol s.cursor then s.moveTo (s.cursor - 1) else s.moveTo s.cursor
  else if k = kBackspace then
    let s := if 0 < s.cursor then s.deleteAt (s.cursor - 1 : ℕ) 1 else s
    s.moveTo s.cursor
  else if k = kDel then s.deleteAt s.cursor 0
  else if k = kLeft then s.moveTo (s.cursor - 1)
  else if k = kRight then
    s.moveTo (if s.cursor < s.buf.data.length then s.cursor + 1 else s.cursor)
  else if k = kUp then s.moveLine false
  else if k = kDown then s.moveLine true
  else if k = kHome then { s with cursor := s.buf.ebLineStart s.cursor, wantCol := 0 }
  else if k = kEnd then s.moveTo (s.buf.ebLineEnd s.cursor)
  else if k = kEnter ∨ k = kReturn then { s.insertAt newline 1 with wantCol := 0 }
  else if 32 ≤ k ∧ k ≤ 126 then
    let s := s.insertAt (UInt8.ofNat k) 1
    s.moveTo s.cursor
  else s

/-- `search_line` with the pattern that was entered. -/
def searchLine (pat : List UInt8) : Editor :=
  { s with lastPattern := if pat = [] then s.lastPattern else pat }.searchStep true

end Editor

def eAtoi (s : List UInt8) : ℤ :=
  if s.all fun c => decide (ascii '0' ≤ c) && decide (c ≤ ascii '9') then
    s.foldl (fun v c => i32 (v * 10 + (c - ascii '0').toNat)) 0
  else 0

abbrev Disk := List UInt8 → Option (List UInt8)

/-- The results of the system calls of a load: of the open, and of one read after the other. -/
structure LoadResults where
  opened : ℤ
  reads : ℕ → ℤ

/-- The loop of `load_file` after `i` reads. A read gives at most its result's number of bytes. -/
def readLoop (content : List UInt8) (reads : ℕ → ℤ) : ℕ → ℕ → List UInt8 → List UInt8
  | 0, _, data => data
  | fuel + 1, i, data =>
    let room := editMaxBytes - data.length
    let got := (content.drop data.length).take (min (reads i).toNat room)
    if room = 0 then data
    else if reads i ≤ 0 ∨ got = [] then data
    else readLoop content reads fuel (i + 1) (data ++ got)

/-- `load_file`: the buffer's text afterwards. -/
def loadFile (disk : Disk) (name : List UInt8) (r : LoadResults) : List UInt8 :=
  if r.opened < 0 then []
  else readLoop ((disk name).getD []) r.reads (editMaxBytes + 1) 0 []

/-- The results of the system calls of a save, and what a close that fails leaves of the file. -/
structure SaveResults where
  opened : ℤ
  created : ℤ
  reopened : ℤ
  writes : ℕ → ℤ
  closed : ℤ
  left : Option (List UInt8)

/-- The loop of `save_file`: whether it got to the end, and how many bytes were accepted. -/
def saveLoop (len : ℕ) (writes : ℕ → ℤ) : ℕ → ℕ → ℕ → Bool × ℕ
  | 0, _, off => (decide (len ≤ off), off)
  | fuel + 1, i, off =>
    if len ≤ off then (true, off)
    else if writes i ≤ 0 then (false, off)
    else saveLoop len writes fuel (i + 1) (off + (writes i).toNat)

/-- The writes and the close of `save_file`. The close's result is not looked at. -/
def saveOpened (disk : Disk) (name text : List UInt8) (r : SaveResults) : Bool × Disk :=
  let w := saveLoop text.length r.writes text.length 0 0
  (w.1, Function.update disk name (if r.closed = 0 then some (text.take w.2) else r.left))

def saveFile (disk : Disk) (name text : List UInt8) (r : SaveResults) : Bool × Disk :=
  if r.opened < 0 then
    if r.created ≠ 0 then (false, disk)
    else
      let disk := Function.update disk name (some [])
      if r.reopened < 0 then (false, disk) else saveOpened disk name text r
  else saveOpened disk name text r

/-- The editor and the disk, and whether the user has asked to discard. -/
structure EditorSys where
  ed : Editor
  disk : Disk
  forced : Bool

/-- The name a `:w` line gives, if it gives one. -/
def nameGiven (cmd : List UInt8) : Option (List UInt8) :=
  if cmd[1]? = some (ascii ' ') then some (cmd.drop 2) else none

/-- `command_line` with the line that was entered. -/
def commandLine (s : EditorSys) (cmd : List UInt8) (r : SaveResults) : EditorSys :=
  if cmd[0]? = some (ascii 'w') then
    let ed := { s.ed with filename := (nameGiven cmd).getD s.ed.filename }
    if ed.filename = [] then { s with ed := ed }
    else
      let saved := saveFile s.disk ed.filename ed.buf.data r
      if saved.1 then
        { s with
          ed := { ed with
            dirty := false, quitting := decide (cmd = asciiText "wq") || ed.quitting }
          disk := saved.2 }
      else { s with ed := ed, disk := saved.2 }
  else if cmd = asciiText "q" then
    if s.ed.dirty then s else { s with ed := { s.ed with quitting := true } }
  else if cmd = asciiText "q!" then
    { s with ed := { s.ed with quitting := true }, forced := true }
  else if cmd[0]?.any fun c => decide (ascii '1' ≤ c) && decide (c ≤ ascii '9') then
    { s with ed := { s.ed with cursor := s.ed.buf.ebGotoLine (eAtoi cmd), wantCol := 0 } }
  else s

structure EditorStep where
  key : ℕ
  results : SaveResults

/-- A key in `read_prompt_line`; 63 characters fit. -/
def promptKey (s : EditorSys) (lead : Lead) (line : List UInt8) (step : EditorStep) : EditorSys :=
  if step.key = kEsc then { s with ed := { s.ed with prompt := none } }
  else if step.key = kEnter ∨ step.key = kReturn then
    let s := { s with ed := { s.ed with prompt := none } }
    match lead with
    | .colon => commandLine s line step.results
    | .slash => { s with ed := s.ed.searchLine line }
  else if step.key = kBackspace then
    { s with ed := { s.ed with prompt := some (lead, line.dropLast) } }
  else if 32 ≤ step.key ∧ step.key ≤ 126 ∧ line.length < 63 then
    { s with ed := { s.ed with prompt := some (lead, line ++ [UInt8.ofNat step.key]) } }
  else s

/-- One round of the loop of `main`. -/
def editorStep (s : EditorSys) (step : EditorStep) : EditorSys :=
  if s.ed.quitting ∨ step.key = kNone then s
  else
    match s.ed.prompt with
    | some (lead, line) => promptKey s lead line step
    | none =>
      if s.ed.insertMode then { s with ed := s.ed.insertKey step.key }
      else { s with ed := s.ed.normalKey step.key }

def editorRun (s : EditorSys) (steps : List EditorStep) : EditorSys :=
  steps.foldl editorStep s

/-- `main` up to its loop. `filename` has 63 characters; there is a log if there was memory. -/
def startEditor (args : List UInt8) (disk : Disk) (r : LoadResults) (log : Bool) : EditorSys where
  ed :=
    { buf := ⟨if args = [] then [] else loadFile disk (args.take 63) r, editMaxBytes + 1⟩
      undo := if log then some ⟨[], 256, [], 8192, 0, false⟩ else none
      filename := args.take 63, cursor := 0, wantCol := 0, insertMode := false, dirty := false
      quitting := false, lastPattern := [], pendingG := false, pendingD := false, prompt := none }
  disk := disk
  forced := false

/-- The file of the buffer's name is what the buffer has. A missing file is empty. -/
def EditorSys.OnDisk (s : EditorSys) : Prop :=
  if s.ed.filename = [] then s.ed.buf.data = []
  else (s.disk s.ed.filename).getD [] = s.ed.buf.data

instance EditorSys.OnDisk.decidable (s : EditorSys) : Decidable s.OnDisk := by
  unfold EditorSys.OnDisk
  infer_instance

/-- A clean buffer is on the disk, and so is one left by `:q` or `:wq`. -/
structure SavedWork (s : EditorSys) : Prop where
  clean : s.ed.dirty = false → s.OnDisk
  quit : s.ed.quitting = true → s.forced = false → s.OnDisk

/-- What the calls before the `i`-th have moved. -/
def moved (results : ℕ → ℤ) (i : ℕ) : ℕ :=
  ((List.range i).map fun j => (results j).toNat).sum

/-- The first call that fails or moves nothing comes after so many bytes. -/
def MovesAll (results : ℕ → ℤ) (len : ℕ) : Prop :=
  ∀ i, (∀ j < i, 0 < results j) → results i ≤ 0 → len ≤ moved results i

/-- The load sees the whole file: it opens unless empty, fits the buffer, and no read fails or ends
early. -/
def LoadsWhole (content : List UInt8) (r : LoadResults) : Prop :=
  if r.opened < 0 then content = []
  else content.length ≤ editMaxBytes ∧ MovesAll r.reads content.length

def SaveResults.Opens (r : SaveResults) : Prop :=
  0 ≤ r.opened ∨ r.created = 0 ∧ 0 ≤ r.reopened

/-- A `:w` line whose close fails after the rest went well, or that fails while the buffer counts as
saved and has changed the name or the file. -/
def WriteLies (ed : Editor) (cmd : List UInt8) (r : SaveResults) : Prop :=
  let name := (nameGiven cmd).getD ed.filename
  let through := r.Opens ∧ MovesAll r.writes ed.buf.data.length
  (name = [] ∧ ed.dirty = false ∧ name ≠ ed.filename) ∨
  (name ≠ [] ∧ through ∧ r.closed ≠ 0) ∨
  (name ≠ [] ∧ ¬ through ∧ ed.dirty = false ∧
    (name ≠ ed.filename ∨ 0 ≤ r.opened ∨ r.created = 0))

def SaveLies (s : EditorSys) (step : EditorStep) : Prop :=
  s.ed.quitting = false ∧ (step.key = kEnter ∨ step.key = kReturn) ∧
    ∃ cmd, s.ed.prompt = some (.colon, cmd) ∧ cmd[0]? = some (ascii 'w') ∧
      WriteLies s.ed cmd step.results

end EsdumanOS
