import EsdumanOS.Base
import EsdumanOS.Lib.Ring
import EsdumanOS.Lib.Runs

/-!
# The event ring of the USB controller

The event ring of `xhci.c` between the controller, the boot path in `xhci_wait_event`, and
`xhci_poll`, which the timer tick calls, between any two statements of a wait. Each run records who
took which event.
-/

namespace EsdumanOS

open Lib

def xhciTrbsPerSegment : ℕ := 256
def xhciPollMaxEvents : ℕ := 16
def trbTransferEvent : ℕ := 32
def trbCommandComplete : ℕ := 33
def completionSuccess : ℕ := 1
def completionShortPacket : ℕ := 13

/-- An event TRB, by the fields that are read. The number says which posted event it is. -/
structure UsbEvent where
  num : ℕ
  type : ℕ
  slot : ℕ
  endpoint : ℕ
  code : ℕ
  residual : ℕ
  deriving DecidableEq, Repr

/-- An entry of the event ring with its cycle bit. -/
structure EventSlot where
  cycle : ℕ
  event : UsbEvent
  deriving DecidableEq, Repr

/-- What `devices` and `devres` say about a device; `reports` counts the reports handed on. -/
structure UsbDevice where
  slot : ℕ
  hasIntRing : Bool
  kbdDci : ℕ
  bulkInDci : ℕ
  bulkOutDci : ℕ
  bulkDone : Bool
  bulkCode : ℕ
  bulkResidual : ℕ
  reports : ℕ
  deriving DecidableEq, Repr

/-- Where the boot path is in `xhci_wait_event`: outside, about to look, with a record copied, or
past it. -/
inductive WaitPhase
  | idle
  | look (want : ℕ)
  | copied (want : ℕ) (event : UsbEvent)
  | bumped (want : ℕ) (event : UsbEvent)
  deriving DecidableEq, Repr

def WaitPhase.want : WaitPhase → Option ℕ
  | .idle => none
  | .look want | .copied want _ | .bumped want _ => some want

/-- The callers of `xhci_poll`. -/
inductive PollCaller
  | bootPath | tick
  deriving DecidableEq, Repr

inductive Reader
  | wait | poll
  deriving DecidableEq, Repr

/-- An event taken off the ring, by whom, and what the boot path was waiting for at that time. -/
structure Taking where
  reader : Reader
  event : UsbEvent
  waitedFor : Option ℕ
  deriving DecidableEq, Repr

/-- The driver's statics, the controller's position and dequeue pointer, and where the two contexts
are. -/
structure Xhci where
  eventRing : ℕ → EventSlot
  eventDequeue : ℕ
  eventCcs : ℕ
  pollArmed : Bool
  pollBusy : Bool
  devices : List UsbDevice
  hwEnqueue : ℕ
  hwCycle : ℕ
  hwDequeue : ℕ
  wait : WaitPhase
  poll : Option (PollCaller × ℕ)
  posted : ℕ
  taken : List Taking

def xhciNextEvent (s : Xhci) : Option UsbEvent :=
  let trb := s.eventRing s.eventDequeue
  if trb.cycle ≠ s.eventCcs then none else some trb.event

/-- `xhci_consume_event`, its first statement. -/
def bumpDequeue (s : Xhci) : Xhci :=
  { s with eventDequeue := s.eventDequeue + 1 }

/-- `xhci_consume_event`, the rest. -/
def finishConsume (s : Xhci) : Xhci :=
  let s := if s.eventDequeue = xhciTrbsPerSegment then
      { s with eventDequeue := 0, eventCcs := 1 - s.eventCcs }
    else s
  { s with hwDequeue := s.eventDequeue }

def xhciConsumeEvent (s : Xhci) : Xhci :=
  finishConsume (bumpDequeue s)

/-- The controller posts an event, unless its next position is the dequeue pointer. -/
def postEvent (s : Xhci) (type slot endpoint code residual : ℕ) : Xhci :=
  if (s.hwEnqueue + 1) % xhciTrbsPerSegment = s.hwDequeue then s
  else
    { s with
      eventRing := Function.update s.eventRing s.hwEnqueue
        ⟨s.hwCycle, ⟨s.posted, type, slot, endpoint, code, residual⟩⟩
      hwEnqueue := (s.hwEnqueue + 1) % xhciTrbsPerSegment
      hwCycle := if s.hwEnqueue + 1 = xhciTrbsPerSegment then 1 - s.hwCycle else s.hwCycle
      posted := s.posted + 1 }

def Xhci.take (s : Xhci) (reader : Reader) (event : UsbEvent) : Xhci :=
  { s with taken := s.taken ++ [⟨reader, event, s.wait.want⟩] }

/-- One statement of `xhci_wait_event`, not while a tick interrupts or `xhci_poll` runs. -/
def waitStep (s : Xhci) : Xhci :=
  if s.poll.isSome then s
  else
    match s.wait with
    | .idle => s
    | .look want =>
      match xhciNextEvent s with
      | none => s
      | some event => { s with wait := .copied want event }
    | .copied want event =>
      { (bumpDequeue s).take .wait event with wait := .bumped want event }
    | .bumped want event =>
      { finishConsume s with wait := if event.type = want then .idle else .look want }

def waitTimeout (s : Xhci) : Xhci :=
  if s.poll.isSome then s
  else
    match s.wait with
    | .look _ => if xhciNextEvent s = none then { s with wait := .idle } else s
    | _ => s

/-- `device_for_slot`, and what `xhci_poll` does with an event of that device. -/
def deliver (devices : List UsbDevice) (event : UsbEvent) : List UsbDevice :=
  if event.type ≠ trbTransferEvent then devices
  else
    match devices.findIdx? (fun d => d.slot = event.slot) with
    | none => devices
    | some i =>
      devices.modify i fun r =>
        if r.hasIntRing ∧ event.endpoint = r.kbdDci then
          if event.code = completionSuccess ∨ event.code = completionShortPacket then
            { r with reports := r.reports + 1 }
          else r
        else if event.endpoint = r.bulkInDci ∨ event.endpoint = r.bulkOutDci then
          { r with bulkResidual := event.residual, bulkCode := event.code, bulkDone := true }
        else r

/-- The guards of `xhci_poll`. Only the tick gets in between. -/
def pollEnter (s : Xhci) (caller : PollCaller) : Xhci :=
  if caller = .bootPath ∧ (s.poll.isSome ∨ s.wait ≠ .idle) then s
  else if !s.pollArmed then s
  else if s.pollBusy then s
  else { s with pollBusy := true, poll := some (caller, 0) }

/-- One round of the loop of `xhci_poll`, or its end. -/
def pollStep (s : Xhci) : Xhci :=
  match s.poll with
  | none => s
  | some (caller, drained) =>
    match xhciNextEvent s with
    | some event =>
      if drained < xhciPollMaxEvents then
        let s := (xhciConsumeEvent s).take .poll event
        { s with devices := deliver s.devices event, poll := some (caller, drained + 1) }
      else { s with pollBusy := false, poll := none }
    | none => { s with pollBusy := false, poll := none }

inductive UsbStep
  | bringUp (frame : ℕ → EventSlot) (devices : List UsbDevice)
  | arm
  | post (type slot endpoint code residual : ℕ)
  | beginWait (want : ℕ)
  | wait
  | timeout
  | poll (caller : PollCaller)
  | pollOn

def Xhci.Free (s : Xhci) : Prop :=
  s.wait = .idle ∧ s.poll = none

instance (s : Xhci) : Decidable s.Free := inferInstanceAs (Decidable (_ ∧ _))

/-- `xhci_forget` with the rings of `xhci_bring_up`: a cleared event ring, and any memory behind
it. -/
def xhciForget (s : Xhci) (frame : ℕ → EventSlot) (devices : List UsbDevice) : Xhci :=
  { s with
    eventRing := fun i => if i < xhciTrbsPerSegment then ⟨0, ⟨0, 0, 0, 0, 0, 0⟩⟩ else frame i
    eventDequeue := 0, eventCcs := 1, pollArmed := false, devices := devices
    hwEnqueue := 0, hwCycle := 1, hwDequeue := 0 }

def usbStep (s : Xhci) : UsbStep → Xhci
  | .bringUp frame devices => if s.Free then xhciForget s frame devices else s
  | .arm => if s.Free then { s with pollArmed := true } else s
  | .post type slot endpoint code residual => postEvent s type slot endpoint code residual
  | .beginWait want => if s.Free then { s with wait := .look want } else s
  | .wait => waitStep s
  | .timeout => waitTimeout s
  | .poll caller => pollEnter s caller
  | .pollOn => pollStep s

def usbRun (s : Xhci) (steps : List UsbStep) : Xhci :=
  steps.foldl usbStep s

/-- The driver at the start of the first `xhci_bring_up`. -/
def bootXhci (frame : ℕ → EventSlot) : Xhci where
  eventRing := fun i => if i < xhciTrbsPerSegment then ⟨0, ⟨0, 0, 0, 0, 0, 0⟩⟩ else frame i
  eventDequeue := 0
  eventCcs := 1
  pollArmed := false
  pollBusy := false
  devices := []
  hwEnqueue := 0
  hwCycle := 1
  hwDequeue := 0
  wait := .idle
  poll := none
  posted := 0
  taken := []

/-- The poll has taken no event of the type waited for, and no event was taken twice. -/
structure OneReader (s : Xhci) : Prop where
  notStolen : ∀ k ∈ s.taken, k.reader = .poll → k.waitedFor ≠ some k.event.type
  once : (s.taken.map (·.event.num)).Nodup

/-- A round of `xhci_poll` finds an event while the boot path is in `xhci_wait_event`. -/
def PollInWait (s : Xhci) : UsbStep → Prop
  | .pollOn => s.poll.isSome = true ∧ s.wait ≠ .idle ∧ xhciNextEvent s ≠ none
  | _ => False

instance (s : Xhci) (step : UsbStep) : Decidable (PollInWait s step) := by
  unfold PollInWait
  split <;> infer_instance

end EsdumanOS
