import EsdumanOS.Base

/-!
# The editor's buffer and its undo log

The editing half of `editbuf.h`: inserting and deleting, the log of records with the arena of
removed bytes, and undo. `len` and `used` are lengths of lists; the group number and the sum in
`eb_undo_room` are C `int`s that wrap.
-/

namespace EsdumanOS

def newline : UInt8 := 10

structure EditBuf where
  data : List UInt8
  cap : ℤ
  deriving DecidableEq, Repr

namespace EditBuf

variable (b : EditBuf)

/-- The clamping at the head of `eb_line_start` and `eb_line_end`. -/
def clamp (off : ℤ) : ℕ := if (b.data.length : ℤ) < off then b.data.length else off.toNat

/-- The loop of `eb_line_start`. -/
def lineStartFrom : ℕ → ℕ
  | 0 => 0
  | off + 1 => if b.data.getD off 0 = newline then off + 1 else lineStartFrom off

def ebLineStart (off : ℤ) : ℕ := b.lineStartFrom (b.clamp off)

/-- The loop of `eb_line_end`: so many bytes are left up to `len`. -/
def lineEndFrom : ℕ → ℕ → ℕ
  | 0, off => off
  | left + 1, off => if b.data.getD off 0 = newline then off else lineEndFrom left (off + 1)

def ebLineEnd (off : ℤ) : ℕ := b.lineEndFrom (b.data.length - b.clamp off) (b.clamp off)

def ebInsert (off : ℤ) (c : UInt8) : Bool × EditBuf :=
  if off < 0 ∨ (b.data.length : ℤ) < off then (false, b)
  else if b.cap ≤ b.data.length + 1 then (false, b)
  else (true, { b with data := b.data.take off.toNat ++ c :: b.data.drop off.toNat })

def ebDelete (off : ℤ) : Bool × EditBuf :=
  if off < 0 ∨ (b.data.length : ℤ) ≤ off then (false, b)
  else (true, { b with data := b.data.take off.toNat ++ b.data.drop (off.toNat + 1) })

/-- `eb_line_span`: the first byte to remove and one past the last. -/
def ebLineSpan (off : ℤ) : ℕ × ℕ :=
  let start := b.ebLineStart off
  let stop := b.ebLineEnd off
  if stop < b.data.length then (start, stop + 1)
  else (if 0 < start then start - 1 else start, stop)

/-- `eb_delete_line`: where the cursor goes, and the buffer. -/
def ebDeleteLine (off : ℤ) : ℕ × EditBuf :=
  let span := b.ebLineSpan off
  let b' := { b with data := b.data.take span.1 ++ b.data.drop span.2 }
  (b'.ebLineStart (min span.1 b'.data.length), b')

end EditBuf

structure EbRec where
  off : ℕ
  inserted : ℕ
  removed : ℕ
  text : ℕ
  cursor : ℤ
  group : ℤ
  deriving DecidableEq, Repr

structure EbUndo where
  recs : List EbRec
  recCap : ℤ
  arena : List UInt8
  arenaCap : ℤ
  group : ℤ
  lost : Bool
  deriving DecidableEq, Repr

namespace EbUndo

variable (u : EbUndo)

def ebUndoReset : EbUndo := { u with recs := [], arena := [], group := 0, lost := false }

def ebUndoGroup : EbUndo := { u with group := i32 (u.group + 1) }

def oldest : List EbRec :=
  match u.recs with
  | [] => []
  | r :: _ => u.recs.takeWhile fun x => x.group = r.group

def ebUndoDropOldest : EbUndo :=
  if u.recs = [] then u
  else
    let bytes := (u.oldest.map EbRec.removed).sum
    { u with
      recs := (u.recs.drop u.oldest.length).map fun r => { r with text := r.text - bytes }
      arena := u.arena.drop bytes
      lost := true }

/-- The loop of `eb_undo_room`. -/
def roomLoop (need : ℕ) : ℕ → EbUndo → Bool × EbUndo
  | 0, u => (false, u)
  | fuel + 1, u =>
    if u.recCap ≤ u.recs.length ∨ u.arenaCap < i32 (u.arena.length + need) then
      if u.ebUndoDropOldest.recs.length = u.recs.length then (false, u.ebUndoDropOldest)
      else roomLoop need fuel u.ebUndoDropOldest
    else (true, u)

/-- `eb_undo_room`. A round that goes on drops a record, so `nrecs + 1` rounds are enough. -/
def ebUndoRoom (need : ℕ) : Bool × EbUndo :=
  if u.recCap ≤ 0 ∨ u.arenaCap < need then (false, u) else roomLoop need (u.recs.length + 1) u

def continues (r : EbRec) (off inserted : ℕ) (removed : List UInt8) : Bool :=
  decide (0 < inserted ∧ removed.length = 0 ∧ r.group = u.group ∧ r.removed = 0 ∧
    off = r.off + r.inserted)

/-- The second half of `eb_undo_push`: a record of its own, or none at all. -/
def pushRecord (off inserted : ℕ) (removed : List UInt8) (cursor : ℤ) : EbUndo :=
  match u.ebUndoRoom removed.length with
  | (false, u) => { u.ebUndoReset with lost := true }
  | (true, u) =>
    { u with
      recs := u.recs ++ [⟨off, inserted, removed.length, u.arena.length, cursor, u.group⟩]
      arena := u.arena ++ removed }

def ebUndoPush (off inserted : ℕ) (removed : List UInt8) (cursor : ℤ) : EbUndo :=
  if u.recCap ≤ 0 then u
  else
    match u.recs.getLast? with
    | some r =>
      if u.continues r off inserted removed then
        { u with recs := u.recs.dropLast ++ [{ r with inserted := r.inserted + inserted }] }
      else u.pushRecord off inserted removed cursor
    | none => u.pushRecord off inserted removed cursor

end EbUndo

section Calls

variable (b : EditBuf) (u : EbUndo)

def ebUndoInsert (off : ℤ) (c : UInt8) (cursor : ℤ) : Bool × EditBuf × EbUndo :=
  match b.ebInsert off c with
  | (false, b) => (false, b, u)
  | (true, b) => (true, b, u.ebUndoPush off.toNat 1 [] cursor)

def ebUndoDelete (off cursor : ℤ) : Bool × EditBuf × EbUndo :=
  if off < 0 ∨ (b.data.length : ℤ) ≤ off then (false, b, u)
  else
    let u := u.ebUndoPush off.toNat 0 ((b.data.drop off.toNat).take 1) cursor
    ((b.ebDelete off).1, (b.ebDelete off).2, u)

def ebUndoDeleteLine (off cursor : ℤ) : ℕ × EditBuf × EbUndo :=
  let span := b.ebLineSpan off
  let removed := (b.data.drop span.1).take (span.2 - span.1)
  let u := if span.1 < span.2 then u.ebUndoPush span.1 0 removed cursor else u
  ((b.ebDeleteLine off).1, (b.ebDeleteLine off).2, u)

/-- One record of `eb_undo_apply` is taken back. -/
def undoRec (r : EbRec) : EditBuf :=
  let b := (List.range r.inserted).foldl (fun b _ => (b.ebDelete r.off).2) b
  (List.range r.removed).foldl
    (fun b i => (b.ebInsert ((r.off + i : ℕ) : ℤ) (u.arena.getD (r.text + i) 0)).2) b

/-- The loop of `eb_undo_apply`. -/
def applyLoop (g : ℤ) : ℕ → ℤ → EditBuf → EbUndo → ℤ × EditBuf × EbUndo
  | 0, cursor, b, u => (cursor, b, u)
  | fuel + 1, cursor, b, u =>
    match u.recs.getLast? with
    | none => (cursor, b, u)
    | some r =>
      if r.group = g then
        applyLoop g fuel r.cursor (undoRec b u r)
          { u with recs := u.recs.dropLast, arena := u.arena.take r.text }
      else (cursor, b, u)

/-- `eb_undo_apply`: the cursor, the buffer and the log. -/
def ebUndoApply : ℤ × EditBuf × EbUndo :=
  match u.recs.getLast? with
  | none => (-1, b, u)
  | some r => applyLoop r.group u.recs.length (-1) b u

end Calls

/-- An edit of the text: at `off` so many bytes were put in and these were taken out. -/
structure Edit where
  before : List UInt8
  after : List UInt8
  off : ℕ
  inserted : ℕ
  removed : List UInt8
  cursor : ℤ
  deriving DecidableEq, Repr

inductive EditCall
  | insert (off : ℤ) (c : UInt8) (cursor : ℤ)
  | delete (off cursor : ℤ)
  | deleteLine (off cursor : ℤ)
  | group
  | apply

/-- The buffer and its log, the edits not taken back, and the texts the buffer has had. -/
structure EditSys where
  buf : EditBuf
  log : EbUndo
  history : List Edit
  held : List (List UInt8)

namespace EditSys

variable (s : EditSys)

def next (b : EditBuf) (u : EbUndo) (history : List Edit) : EditSys :=
  ⟨b, u, history, b.data :: s.held⟩

/-- The edits that a record stands for: one for each byte typed, or one deletion. -/
def editsOf (r : EbRec) : ℕ := if r.removed = 0 then r.inserted else 1

def insert (off : ℤ) (c : UInt8) (cursor : ℤ) : EditSys :=
  match ebUndoInsert s.buf s.log off c cursor with
  | (false, b, u) => s.next b u s.history
  | (true, b, u) => s.next b u (s.history ++ [⟨s.buf.data, b.data, off.toNat, 1, [], cursor⟩])

def delete (off cursor : ℤ) : EditSys :=
  match ebUndoDelete s.buf s.log off cursor with
  | (false, b, u) => s.next b u s.history
  | (true, b, u) => s.next b u (s.history ++
      [⟨s.buf.data, b.data, off.toNat, 0, (s.buf.data.drop off.toNat).take 1, cursor⟩])

def deleteLine (off cursor : ℤ) : EditSys :=
  let span := s.buf.ebLineSpan off
  let r := ebUndoDeleteLine s.buf s.log off cursor
  s.next r.2.1 r.2.2
    (if span.1 < span.2 then
      s.history ++ [⟨s.buf.data, r.2.1.data, span.1, 0,
        (s.buf.data.drop span.1).take (span.2 - span.1), cursor⟩]
    else s.history)

def apply : EditSys :=
  let r := ebUndoApply s.buf s.log
  let undone := ((s.log.recs.drop r.2.2.recs.length).map editsOf).sum
  s.next r.2.1 r.2.2 (s.history.take (s.history.length - undone))

def init (data : List UInt8) (cap recCap arenaCap : ℤ) : EditSys :=
  ⟨⟨data, cap⟩, ⟨[], recCap, [], arenaCap, 0, false⟩, [], [data]⟩

end EditSys

def editStep (s : EditSys) : EditCall → EditSys
  | .insert off c cursor => s.insert off c cursor
  | .delete off cursor => s.delete off cursor
  | .deleteLine off cursor => s.deleteLine off cursor
  | .group => s.next s.buf s.log.ebUndoGroup s.history
  | .apply => s.apply

def editRun (s : EditSys) (calls : List EditCall) : EditSys := calls.foldl editStep s

/-- The bytes at `off` changed and nothing else did. -/
def Edit.Valid (e : Edit) : Prop :=
  ∃ pre typed post, pre.length = e.off ∧ typed.length = e.inserted ∧
    e.before = pre ++ e.removed ++ post ∧ e.after = pre ++ typed ++ post

/-- One edit after the other leads from the text `t` to the text `t'`. -/
def Leads (t' : List UInt8) : List UInt8 → List Edit → Prop
  | t, [] => t = t'
  | t, e :: es => e.before = t ∧ e.Valid ∧ Leads t' e.after es

/-- What a record says about the edits it stands for: a deletion, or bytes typed in a row. -/
inductive EbRec.Covers (r : EbRec) : List Edit → Prop
  | removes (e : Edit) (inserted : e.inserted = 0) (some : e.removed ≠ [])
      (rec_off : r.off = e.off) (rec_inserted : r.inserted = 0)
      (rec_removed : r.removed = e.removed.length) (rec_cursor : r.cursor = e.cursor) : Covers r [e]
  | types (e : Edit) (es : List Edit) (inserted : ∀ x ∈ e :: es, x.inserted = 1 ∧ x.removed = [])
      (offs : (e :: es).map Edit.off = List.range' r.off (es.length + 1))
      (rec_inserted : r.inserted = es.length + 1) (rec_removed : r.removed = 0)
      (rec_cursor : r.cursor = e.cursor) : Covers r (e :: es)

/-- The record stands for these edits, and the arena has the bytes that they removed. -/
structure Records (arena : List UInt8) (r : EbRec) (run : List Edit) : Prop where
  covers : r.Covers run
  bytes : (arena.drop r.text).take r.removed = run.flatMap Edit.removed

def Describes (arena : List UInt8) (recs : List EbRec) (es : List Edit) : Prop :=
  ∃ runs, runs.flatten = es ∧ List.Forall₂ (Records arena) recs runs

/-- The oldest record of the newest group is `r`: these come before it and after it. -/
structure NewestGroup (recs older : List EbRec) (r : EbRec) (newer : List EbRec) : Prop where
  split : recs = older ++ r :: newer
  same : ∀ x ∈ newer, x.group = r.group
  other : ∀ x ∈ older.getLast?, x.group ≠ r.group

/-- The text before the oldest retained record of the newest group comes back, with its cursor. -/
def ApplyRestores (s : EditSys) : Prop :=
  ∃ older r newer old e later, NewestGroup s.log.recs older r newer ∧
    s.history = old ++ e :: later ∧ Describes s.log.arena (r :: newer) (e :: later) ∧
    (ebUndoApply s.buf s.log).2.1.data = e.before ∧ (ebUndoApply s.buf s.log).1 = e.cursor ∧
    e.before ∈ s.held

structure UndoSound (data : List UInt8) (s : EditSys) : Prop where
  history : Leads s.buf.data data s.history
  suffix : ∃ es, es <:+ s.history ∧ Describes s.log.arena s.log.recs es
  applies : (ebUndoApply s.buf s.log).1 ≠ -1 → ApplyRestores s
  texts : (ebUndoApply s.buf s.log).2.1.data ∈ s.held
  recsFit : (s.log.recs.length : ℤ) ≤ max 0 s.log.recCap
  arenaFits : s.log.arenaCap + s.buf.cap ≤ 2 ^ 31 → (s.log.arena.length : ℤ) ≤ max 0 s.log.arenaCap

end EsdumanOS
