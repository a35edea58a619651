import EsdumanOS.Base

/-!
# The entropy pool

`entropy.c`: events leave a sample in a ring and are credited with what their timing is worth;
extraction hashes the ring into the state. SHA-256 is a parameter, and `rdtsc` and `rdrand` come
with each call.
-/

namespace EsdumanOS

open Function

def entropyRingSize : ℕ := 64
def entropyOkThreshold : ℕ := 256
def entropySrcTimer : ℕ := 0
def entropySrcKbd : ℕ := 1
def entropySrcAta : ℕ := 2
def entropySrcN : ℕ := 3

/-- `ENTROPY_OK`, `ENTROPY_WEAK` and `ENTROPY_FAIL`. -/
inductive EntropyStatus
  | ok | weak | fail
  deriving DecidableEq

structure EntropyPool where
  state : List UInt8
  ring : ℕ → UInt32
  (ringHead ringCount : ℕ)
  seq : UInt32
  creditedBits : ℕ
  creditedBySource : ℕ → ℕ
  (lastTsc lastD1 lastD2 : UInt32)
  seeded : Bool

/-- The pool that `entropy_init` clears, with the state and the time stamp it leaves. -/
def EntropyPool.fresh (state : List UInt8) (tsc : UInt32) (seeded : Bool) : EntropyPool :=
  ⟨state, fun _ => 0, 0, 0, 0, 0, fun _ => 0, tsc, 0, 0, seeded⟩

def bitLengthLoop : ℕ → ℕ → ℕ
  | 0, _ => 0
  | fuel + 1, v => if v = 0 then 0 else bitLengthLoop fuel (v / 2) + 1

/-- A word is shifted to 0 in 32 turns. -/
def bitLength (v : UInt32) : ℕ := bitLengthLoop 32 v.toNat

def entropyCredit (source : ℕ) : ℕ :=
  if source = entropySrcKbd then 4 else if source = entropySrcAta then 2 else 0

def entropyBudget (source : ℕ) : ℕ :=
  if source = entropySrcKbd then 4096 else if source = entropySrcAta then 64 else 0

/-- The least of its three differences, the cap of the source and what is left of its budget. -/
def EntropyPool.credit (p : EntropyPool) (source : ℕ) (tsc : UInt32) : ℕ :=
  let d1 := tsc - p.lastTsc
  let d2 := d1 - p.lastD1
  let d3 := d2 - p.lastD2
  let spent := p.creditedBySource source
  let remaining := if entropyBudget source ≤ spent then 0 else entropyBudget source - spent
  min (min (min (min (bitLength d1) (bitLength d2)) (bitLength d3))
    (entropyCredit source)) remaining

def EntropyPool.sample (p : EntropyPool) (source : ℕ) (data tsc : UInt32) : EntropyPool :=
  let d1 := tsc - p.lastTsc
  { p with
    lastTsc := tsc
    lastD1 := d1
    lastD2 := d1 - p.lastD1
    ring := update p.ring p.ringHead (d1 ^^^ (data <<< 16) ^^^ UInt32.ofNat source ^^^ tsc)
    ringHead := (p.ringHead + 1) % entropyRingSize
    ringCount := if p.ringCount < entropyRingSize then p.ringCount + 1 else p.ringCount }

def entropyAddEvent (p : EntropyPool) (source : ℕ) (data tsc : UInt32) : EntropyPool :=
  if entropySrcN ≤ source then p
  else
    let credit := p.credit source tsc
    let p := p.sample source data tsc
    if credit = 0 then p
    else { p with
      creditedBySource :=
        update p.creditedBySource source (u32 (p.creditedBySource source + credit))
      creditedBits := u32 (p.creditedBits + credit) }

def entropyQuality (rdrand : Bool) (p : EntropyPool) : EntropyStatus :=
  if !p.seeded then .fail
  else if rdrand then .ok
  else if entropyOkThreshold ≤ p.creditedBits then .ok else .weak

section Extraction

variable (sha256 : List UInt8 → List UInt8)

def wordBytes (w : UInt32) : List UInt8 := (List.range 4).map (leByte w.toNat)

def poolAbsorbWord (p : EntropyPool) (word : UInt32) : EntropyPool :=
  { p with state := sha256 (p.state ++ wordBytes word) }

def poolDrainRing (p : EntropyPool) : EntropyPool :=
  let samples := ((List.range p.ringCount).map p.ring).flatMap wordBytes
  { p with
    ringCount := 0
    ringHead := 0
    state := if p.ringCount = 0 then p.state else sha256 (p.state ++ samples) }

def poolExtract (p : EntropyPool) (len : ℕ) : List UInt8 × EntropyPool :=
  let seq := p.seq + 1
  let block := fun i => sha256 (p.state ++ wordBytes seq ++ wordBytes (UInt32.ofNat i))
  (((List.range ((len + 31) / 32)).flatMap block).take len,
    { p with seq := seq, state := sha256 (p.state ++ [1]) })

/-- The words of `rdrand`, of which `draw` has none if ten attempts fail. -/
def rdrandFill (draw : ℕ → Option UInt32) (len : ℕ) :
    List ℕ → List UInt8 → EntropyPool → Bool × List UInt8 × EntropyPool
  | [], out, p => (true, out, p)
  | i :: is, out, p =>
    match draw i with
    | none => (false, out, p)
    | some w => rdrandFill draw len is (out ++ (wordBytes w).take (len - out.length))
        (poolAbsorbWord sha256 p w)

/-- The status, the bytes written and the pool; `buf` says whether there is a buffer. -/
def generateRandomBytes (rdrand : Bool) (draw : ℕ → Option UInt32) (p : EntropyPool) (buf : Bool)
    (len : ℕ) : EntropyStatus × List UInt8 × EntropyPool :=
  if !buf || len == 0 then (entropyQuality rdrand p, [], p)
  else if !p.seeded then (.fail, [], p)
  else
    let r := if rdrand then rdrandFill sha256 draw len (List.range ((len + 3) / 4)) [] p
      else (false, [], p)
    if r.1 then (.ok, r.2.1, { r.2.2 with seq := r.2.2.seq + 1 })
    else
      let q := poolExtract sha256 (poolDrainRing sha256 r.2.2) len
      (if entropyOkThreshold ≤ q.2.creditedBits then .ok else .weak, q)

inductive EntropyCall
  | addEvent (source : ℕ) (data tsc : UInt32)
  | generate (draw : ℕ → Option UInt32) (buf : Bool) (len : ℕ)
  | quality

/-- A call on a machine that has `rdrand` or not, and the status it reports. -/
def entropyStep (rdrand : Bool) (p : EntropyPool) : EntropyCall → Option EntropyStatus × EntropyPool
  | .addEvent source data tsc => (none, entropyAddEvent p source data tsc)
  | .generate draw buf len =>
    let r := generateRandomBytes sha256 rdrand draw p buf len
    (some r.1, r.2.2)
  | .quality => (some (entropyQuality rdrand p), p)

def entropyRun (rdrand : Bool) (p : EntropyPool) (calls : List EntropyCall) : EntropyPool :=
  calls.foldl (fun p c => (entropyStep sha256 rdrand p c).2) p

end Extraction

structure EntropyEvent where
  source : ℕ
  (data tsc : UInt32)

def eventRun (p : EntropyPool) (l : List EntropyEvent) : EntropyPool :=
  l.foldl (fun p e => entropyAddEvent p e.source e.data e.tsc) p

/-- The events of `s` come at intervals of `t`. -/
def EvenlySpaced (s : ℕ) (t : UInt32) (l : List EntropyEvent) : Prop :=
  ((l.filter fun e => e.source = s).map EntropyEvent.tsc).IsChain fun a b => b - a = t

/-- What holds at every event of `s` from its fourth on, of the events before it and of it. -/
def FromFourth (s : ℕ) (l : List EntropyEvent)
    (P : List EntropyEvent → EntropyEvent → Prop) : Prop :=
  ∀ before e after, l = before ++ e :: after → e.source = s →
    3 ≤ before.countP (fun e => e.source = s) → P before e

def EarnsNothing (s : ℕ) (p : EntropyPool) (l : List EntropyEvent) : Prop :=
  FromFourth s l fun before e =>
    (eventRun p (before ++ [e])).creditedBySource s = (eventRun p before).creditedBySource s

/-- The budget of `s` is spent (as that of the timer always is), or the two events before are events
of `s` as well. -/
def Undisturbed (s : ℕ) (p : EntropyPool) (l : List EntropyEvent) : Prop :=
  FromFourth s l fun before _ => entropyBudget s ≤ (eventRun p before).creditedBySource s ∨
    ∃ front a b, before = front ++ [a, b] ∧ a.source = s ∧ b.source = s

end EsdumanOS
