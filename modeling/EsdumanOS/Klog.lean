import EsdumanOS.Shadow
import EsdumanOS.Lib.Ring
import EsdumanOS.Lib.Runs

/-!
# The kernel log

The ring of `klog.c` and the reader of `/dev/kmsg`. Clearing only moves the floor below which
nothing is shown. Each process has its own position, which a forked child takes over.
-/

namespace EsdumanOS

open Lib Function

def klogModuleMax : ℕ := 16
def klogTextMax : ℕ := 144
def klogRecords : ℕ := 512
def klogLineMax : ℕ := 192
def logLevelCritical : ℕ := 4
def klogUserBurst : ℕ := 32
def klogUserWindow : ℕ := 100

/-- `a - b` in a `uint32_t`. -/
def sub32 (a b : ℕ) : ℕ :=
  u32 (a + 2 ^ 32 - b)

structure KlogRecord where
  seq : ℕ
  ticks : ℕ
  uid : ℕ
  level : ℕ
  fromUser : Bool
  textLen : ℕ
  moduleName : List UInt8
  text : List UInt8
  deriving DecidableEq, Repr

/-- The arguments of `klog_store`, with the tick count at the call. A null string is `none`. -/
structure KlogEntry where
  level : ℕ
  moduleName : Option (List UInt8)
  message : Option (List UInt8)
  tail : Option (List UInt8)
  uid : ℕ
  fromUser : Bool
  ticks : ℕ
  deriving DecidableEq, Repr

/-- The statics of `klog.c`. -/
structure Klog where
  ring : ℕ → KlogRecord
  seqNext : ℕ
  floorSeq : ℕ
  logLevel : ℤ
  userWindowEnd : ℕ
  userInWindow : ℕ

/-- The index of `klog_slot_for`. -/
def klogSlotFor (seq : ℕ) : ℕ :=
  sub32 seq 1 % klogRecords

def klogVisibleFloor (k : Klog) : ℕ :=
  let wrapped := if k.seqNext > klogRecords then k.seqNext - klogRecords else 1
  if k.floorSeq > wrapped then k.floorSeq else wrapped

def klogHeld (k : Klog) : ℕ :=
  sub32 k.seqNext (klogVisibleFloor k)

def klogOldestSeq (k : Klog) : ℕ :=
  if klogHeld k = 0 then 0 else klogVisibleFloor k

def klogBySeq (k : Klog) (seq : ℕ) : Option KlogRecord :=
  if seq = 0 ∨ seq ≥ k.seqNext then none
  else if seq < klogVisibleFloor k then none
  else
    let r := k.ring (klogSlotFor seq)
    if r.seq = seq then some r else none

def klogClear (k : Klog) : Klog :=
  { k with floorSeq := k.seqNext }

def klogSetLevel (k : Klog) (level : ℤ) : Klog :=
  { k with logLevel := max 0 (min level logLevelCritical) }

/-- `klog_copy`, of a string that may be null. -/
def klogCopy (src : Option (List UInt8)) (cap : ℕ) : List UInt8 :=
  (src.getD []).take (cap - 1)

/-- The text of a record: the message, and the tail after a blank if there is room for both. -/
def klogText (message tail : Option (List UInt8)) : List UInt8 :=
  let text := klogCopy message klogTextMax
  match tail with
  | none | some [] => text
  | some tail =>
    if text.length < klogTextMax - 2 then
      text ++ ascii ' ' :: tail.take (klogTextMax - 2 - text.length)
    else text

/-- The message and the tail with a blank between them, whatever room there is. -/
def klogWhole (message tail : Option (List UInt8)) : List UInt8 :=
  message.getD [] ++ if tail.getD [] = [] then [] else ascii ' ' :: tail.getD []

/-- The record that `klog_store` makes of its arguments. -/
def klogCompose (seq : ℕ) (e : KlogEntry) : KlogRecord where
  seq := seq
  ticks := e.ticks
  uid := e.uid
  level := e.level
  fromUser := e.fromUser
  textLen := (klogText e.message e.tail).length
  moduleName := klogCopy e.moduleName klogModuleMax
  text := klogText e.message e.tail

def klogStore (k : Klog) (e : KlogEntry) : Klog :=
  { k with
    ring := update k.ring (klogSlotFor k.seqNext) (klogCompose k.seqNext e)
    seqNext := u32 (k.seqNext + 1) }

def klogAppend (cap : ℕ) (line src : List UInt8) : List UInt8 :=
  line ++ src.take (cap - 1 - line.length)

def klogAppendNum (cap : ℕ) (line : List UInt8) (value width : ℕ) : List UInt8 :=
  let digits := if value = 0 then [ascii '0'] else decDigits 10 value
  klogAppend cap (klogAppend cap line (List.replicate (width - digits.length) (ascii ' '))) digits

def klogFormatKmsg (r : KlogRecord) (max : ℤ) : List UInt8 :=
  if max ≤ 1 then []
  else
    let cap := max.toNat
    let line := klogAppend cap (klogAppendNum cap [] r.level 0) [ascii ',']
    let line := klogAppend cap (klogAppendNum cap line r.seq 0) [ascii ',']
    let line := klogAppend cap (klogAppendNum cap line r.ticks 0) [ascii ',']
    let line := klogAppend cap line [if r.fromUser then ascii 'u' else ascii '-']
    let line := klogAppend cap line [ascii ';']
    let line := klogAppend cap line r.moduleName
    let line := klogAppend cap line (asciiText ": ")
    let line := klogAppend cap line r.text
    klogAppend cap line [ascii '\n']

/-- The record at or after `cursor`, and the position moved up to what the ring still shows. -/
def kmsgPick (k : Klog) (cursor : ℕ) : Option KlogRecord × ℕ :=
  if klogOldestSeq k = 0 then (none, cursor)
  else
    let cursor := if cursor < klogOldestSeq k then klogOldestSeq k else cursor
    (klogBySeq k cursor, cursor)

/-- `dev_kmsg_read` by a process at position `cursor`. -/
def devKmsgRead (k : Klog) (cursor : ℕ) (size : ℤ) : (Errno ⊕ List UInt8) × ℕ :=
  if size ≤ 0 then (.inl .inval, cursor)
  else
    match kmsgPick k cursor with
    | (none, cursor) => (.inr [], cursor)
    | (some r, cursor) =>
      let line := klogFormatKmsg r klogLineMax
      if line.length = 0 then (.inr [], cursor)
      else (.inr (line.take size.toNat), u32 (cursor + 1))

/-- The log and the positions of the processes; the entries stored, how many since the last clear,
and what each process has read. -/
structure KlogSys where
  log : Klog
  cursors : ℕ → ℕ
  stored : List KlogEntry
  sinceClear : ℕ
  reads : ℕ → List KlogRecord

def KlogSys.store (s : KlogSys) (e : KlogEntry) : KlogSys :=
  { s with
    log := klogStore s.log e, stored := s.stored ++ [e], sinceClear := s.sinceClear + 1 }

/-- `klog_emit`, behind `klog` and `klog_record`, and `klog_int` and `klog_hex` with a tail. -/
def klogEmit (s : KlogSys) (level : ℤ) (moduleName message tail : Option (List UInt8)) (now : ℕ) :
    KlogSys :=
  if level < s.log.logLevel then s
  else s.store ⟨(max 0 (min level logLevelCritical)).toNat, moduleName, message, tail, 0, false,
    now⟩

def klogUserRecord (s : KlogSys) (level : ℤ) (text : Option (List UInt8)) (uid now : ℕ) :
    Errno × KlogSys :=
  match text with
  | none => (.inval, s)
  | some text =>
    let level := (max 0 (min level logLevelCritical)).toNat
    let log := if s.log.userWindowEnd ≤ now then
        { s.log with userWindowEnd := u32 (now + klogUserWindow), userInWindow := 0 }
      else s.log
    if klogUserBurst ≤ log.userInWindow then (.again, { s with log := log })
    else
      let log := { log with userInWindow := log.userInWindow + 1 }
      (.ok, { s with log := log }.store
        ⟨level, some (asciiText "USER"), some text, none, uid, true, now⟩)

/-- A read of `/dev/kmsg` by process `t`. -/
def KlogSys.read (s : KlogSys) (t : ℕ) (size : ℤ) : KlogSys :=
  let r := devKmsgRead s.log (s.cursors t) size
  let s' := { s with cursors := update s.cursors t r.2 }
  match r.1, (kmsgPick s.log (s.cursors t)).1 with
  | .inr (_ :: _), some found =>
    { s' with reads := update s.reads t (s.reads t ++ [found]) }
  | _, _ => s'

inductive KlogCall
  | emit (level : ℤ) (moduleName message tail : Option (List UInt8)) (now : ℕ)
  | user (level : ℤ) (text : Option (List UInt8)) (uid now : ℕ)
  | setLevel (level : ℤ)
  | clear
  | read (t : ℕ) (size : ℤ)
  | spawn (t : ℕ)
  | fork (parent child : ℕ)

/-- A new process starts at position 0; a forked one goes on where its parent was. -/
def klogStep (s : KlogSys) : KlogCall → KlogSys
  | .emit level moduleName message tail now => klogEmit s level moduleName message tail now
  | .user level text uid now => (klogUserRecord s level text uid now).2
  | .setLevel level => { s with log := klogSetLevel s.log level }
  | .clear => { s with log := klogClear s.log, sinceClear := 0 }
  | .read t size => s.read t size
  | .spawn t =>
    { s with
      cursors := update s.cursors t 0, reads := update s.reads t [] }
  | .fork parent child =>
    { s with
      cursors := update s.cursors child (s.cursors parent)
      reads := update s.reads child (s.reads parent) }

def klogRun (s : KlogSys) (calls : List KlogCall) : KlogSys :=
  calls.foldl klogStep s

def bootKlog : KlogSys where
  log := ⟨fun _ => ⟨0, 0, 0, 0, false, 0, [], []⟩, 1, 1, 1, 0, 0⟩
  cursors := fun _ => 0
  stored := []
  sinceClear := 0
  reads := fun _ => []

def KlogSys.window (s : KlogSys) : ℕ :=
  min klogRecords s.sinceClear

/-- The number `n` is one of the last `s.window` numbers given. -/
def KlogSys.Shown (s : KlogSys) (n : ℕ) : Prop :=
  s.stored.length - s.window < n ∧ n ≤ s.stored.length

instance (s : KlogSys) (n : ℕ) : Decidable (s.Shown n) := inferInstanceAs (Decidable (_ ∧ _))

/-- The window is what was stored, and each process reads it in order, passing over only what is
gone. -/
structure KlogExact (s : KlogSys) : Prop where
  bySeq : ∀ n, klogBySeq s.log n =
    if s.Shown n then s.stored[n - 1]?.map (klogCompose n) else none
  held : klogHeld s.log = s.window
  oldest : klogOldestSeq s.log = if s.window = 0 then 0 else s.stored.length - s.window + 1
  increasing : ∀ t, (s.reads t).Pairwise (·.seq < ·.seq)
  next : ∀ t size b bs, (devKmsgRead s.log (s.cursors t) size).1 = .inr (b :: bs) →
    ∃ n r, klogBySeq s.log n = some r ∧ (s.read t size).reads t = s.reads t ++ [r] ∧
      b :: bs = (klogFormatKmsg r klogLineMax).take size.toNat ∧ (∀ q ∈ s.reads t, q.seq < n) ∧
      ∀ m, m < n → (∀ q ∈ s.reads t, q.seq < m) → ¬ s.Shown m

/-- A call of `klog_user_record`, so many ticks after the one before. -/
structure UserCall where
  elapsed : ℕ
  level : ℤ
  text : List UInt8
  uid : ℕ

/-- The log, the ticks since the counter was 0, and those at which calls were accepted. -/
structure UserLog where
  sys : KlogSys
  tick : ℕ
  accepted : List ℕ

def UserLog.call (s : UserLog) (c : UserCall) : Errno × KlogSys :=
  klogUserRecord s.sys c.level (some c.text) c.uid (u32 (s.tick + c.elapsed))

def userStep (s : UserLog) (c : UserCall) : UserLog where
  sys := (s.call c).2
  tick := s.tick + c.elapsed
  accepted := if (s.call c).1 = .ok then (s.tick + c.elapsed) :: s.accepted else s.accepted

def userRun (tick : ℕ) (calls : List UserCall) : UserLog :=
  calls.foldl userStep ⟨bootKlog, tick, []⟩

def UserLog.acceptedFrom (s : UserLog) (a : ℕ) : ℕ :=
  s.accepted.countP fun t => a ≤ t ∧ t < a + klogUserWindow

/-- The end of a window opened now does not wrap, and the counter has not wrapped since the call
before unless the end of the open window is behind it again. -/
def NoWrap (s : UserLog) (c : UserCall) : Prop :=
  u32 (s.tick + c.elapsed) + klogUserWindow < 2 ^ 32 ∧
    ((s.tick + c.elapsed) / 2 ^ 32 = s.tick / 2 ^ 32 ∨
      s.sys.log.userWindowEnd ≤ u32 (s.tick + c.elapsed))

end EsdumanOS
