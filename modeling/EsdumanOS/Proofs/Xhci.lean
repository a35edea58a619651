import EsdumanOS.Xhci

/-!
# The event ring has one reader

As long as no tick finds an event during a wait, whoever steps the dequeue pointer is alone with the
controller. Position `i` of the ring carries `cycleBit i`, a record of the last lap never looks new,
and the reader sees the posted events in their order (`xhciNextEvent_eq`).
-/

namespace EsdumanOS

open Lib List

section Laps

def cycleBit (i : ℕ) : ℕ :=
  1 - i / xhciTrbsPerSegment % 2

def slotsOf (events : List UsbEvent) : List EventSlot :=
  events.mapIdx fun i event => ⟨cycleBit i, event⟩

structure DequeueAt (s : Xhci) (c : ℕ) : Prop where
  dequeue : s.eventDequeue = c % xhciTrbsPerSegment
  ccs : s.eventCcs = cycleBit c

/-- The driver has stepped past position `c` and not yet looked for the end of the segment. -/
structure SteppedPast (s : Xhci) (c : ℕ) : Prop where
  dequeue : s.eventDequeue = c % xhciTrbsPerSegment + 1
  ccs : s.eventCcs = cycleBit c

/-- The ring with `events` posted and `c` of them taken; the controller knows of `e` of these. -/
structure RingInv (s : Xhci) (events : List UsbEvent) (c e : ℕ) : Prop where
  held : RingHolds xhciTrbsPerSegment s.eventRing (slotsOf events)
    (events.length - xhciTrbsPerSegment)
  clear : ∀ i, events.length ≤ i → i < xhciTrbsPerSegment → (s.eventRing i).cycle = 0
  hwEnqueue : s.hwEnqueue = events.length % xhciTrbsPerSegment
  hwCycle : s.hwCycle = cycleBit events.length
  hwDequeue : s.hwDequeue = e % xhciTrbsPerSegment
  told : e ≤ c
  taken : c ≤ events.length
  room : events.length < e + xhciTrbsPerSegment

variable {s s' : Xhci} {events : List UsbEvent} {event : UsbEvent} {c e : ℕ}

lemma length_slotsOf (events : List UsbEvent) : (slotsOf events).length = events.length := by
  simp [slotsOf]

lemma slotsOf_append (events : List UsbEvent) (event : UsbEvent) :
    slotsOf (events ++ [event]) = slotsOf events ++ [⟨cycleBit events.length, event⟩] := by
  simp [slotsOf]

lemma cycleBit_succ (i : ℕ) :
    cycleBit (i + 1) =
      if i % xhciTrbsPerSegment + 1 = xhciTrbsPerSegment then 1 - cycleBit i else cycleBit i := by
  unfold cycleBit xhciTrbsPerSegment
  split_ifs <;> omega

lemma mod_succ (i : ℕ) :
    (i + 1) % xhciTrbsPerSegment =
      if i % xhciTrbsPerSegment + 1 = xhciTrbsPerSegment then 0
      else i % xhciTrbsPerSegment + 1 := by
  unfold xhciTrbsPerSegment
  split_ifs <;> omega

section

variable (h : RingInv s events c e)
include h

lemma RingInv.slot {i : ℕ} (hi : events.length ≤ i + xhciTrbsPerSegment) (hlt : i < events.length) :
    events[i]?.map (.mk (cycleBit i)) = some (s.eventRing (i % xhciTrbsPerSegment)) := by
  have hslot := h.held.slot i (by omega) (by rw [length_slotsOf]; exact hlt)
  rwa [slotsOf, getElem?_mapIdx] at hslot

lemma xhciNextEvent_eq (hd : DequeueAt s c) : xhciNextEvent s = events[c]? := by
  have ht := h.told
  have hr := h.room
  unfold xhciNextEvent
  rw [hd.dequeue, hd.ccs]
  rcases Nat.lt_or_eq_of_le h.taken with hlt | heq
  · obtain ⟨event, he, hslot⟩ := Option.map_eq_some_iff.1 (h.slot (by omega) hlt)
    simp [← hslot, he]
  · -- nothing new: the slot is one of the last lap, or was never written
    rw [getElem?_eq_none (by omega), if_pos]
    by_cases hf : events.length < xhciTrbsPerSegment
    · rw [Nat.mod_eq_of_lt (by omega), h.clear c (by omega) (by omega)]
      unfold cycleBit
      rw [Nat.div_eq_of_lt (by omega)]
      simp
    · have hslot := h.slot (i := c - xhciTrbsPerSegment) (by omega)
        (by omega)
      obtain ⟨event, -, hslot⟩ := Option.map_eq_some_iff.1 hslot
      have hm : (c - xhciTrbsPerSegment) % xhciTrbsPerSegment = c % xhciTrbsPerSegment := by
        unfold xhciTrbsPerSegment at hf ⊢
        omega
      rw [← hm, ← hslot]
      unfold cycleBit xhciTrbsPerSegment at *
      dsimp only
      omega

lemma RingInv.congr (hr : s'.eventRing = s.eventRing)
    (he : s'.hwEnqueue = s.hwEnqueue) (hc : s'.hwCycle = s.hwCycle)
    (hd : s'.hwDequeue = s.hwDequeue) : RingInv s' events c e :=
  ⟨hr ▸ h.held, hr ▸ h.clear, he.trans h.hwEnqueue, hc.trans h.hwCycle,
    hd.trans h.hwDequeue, h.told, h.taken, h.room⟩

lemma RingInv.post (type slot endpoint code residual : ℕ)
    (hr : (s.hwEnqueue + 1) % xhciTrbsPerSegment ≠ s.hwDequeue) :
    RingInv (postEvent s type slot endpoint code residual)
      (events ++ [⟨s.posted, type, slot, endpoint, code, residual⟩]) c e := by
  have hl := length_slotsOf events
  have hN : xhciTrbsPerSegment = 256 := rfl
  have ht := h.told
  have hta := h.taken
  have hlt : events.length + 1 < e + xhciTrbsPerSegment := by
    have hle := h.room
    rw [h.hwEnqueue, h.hwDequeue] at hr
    rw [hN] at hr hle ⊢
    omega
  unfold postEvent
  rw [if_neg hr]
  refine ⟨?_, ?_, ?_, ?_, h.hwDequeue, ht, ?_, ?_⟩
  · -- the slot is that of the record one lap before
    have hk : RingHolds xhciTrbsPerSegment s.eventRing (slotsOf events)
        (events.length + 1 - xhciTrbsPerSegment) := h.held.advance (by omega) (by omega)
    have hp := hk.push (by omega)
      ⟨cycleBit events.length, ⟨s.posted, type, slot, endpoint, code, residual⟩⟩
    rw [hl, ← h.hwEnqueue, ← h.hwCycle] at hp
    rw [slotsOf_append, length_append, length_singleton, ← h.hwCycle]
    exact hp
  · intro i hi hlt
    rw [length_append, length_singleton] at hi
    dsimp only
    rw [Function.update_of_ne, h.clear i (by omega) hlt]
    rw [h.hwEnqueue, Nat.mod_eq_of_lt (by omega)]
    omega
  · simp only [length_append, length_singleton, h.hwEnqueue]
    rw [Nat.mod_add_mod]
  · simp only [length_append, length_singleton, h.hwEnqueue, h.hwCycle, cycleBit_succ]
  · simp only [length_append, length_singleton]
    omega
  · simpa using hlt

end

lemma DequeueAt.bump (h : DequeueAt s c) : SteppedPast (bumpDequeue s) c :=
  ⟨congrArg (· + 1) h.dequeue, h.ccs⟩

lemma SteppedPast.finish (h : SteppedPast s c) : DequeueAt (finishConsume s) (c + 1) := by
  unfold finishConsume
  rw [h.dequeue]
  refine ⟨?_, ?_⟩
  · rw [mod_succ]
    split_ifs
    · rfl
    · exact h.dequeue
  · rw [cycleBit_succ]
    split_ifs
    · exact congrArg (1 - ·) h.ccs
    · exact h.ccs

lemma RingInv.take (h : RingInv s events c e) (hlt : c < events.length) :
    RingInv s events (c + 1) e :=
  ⟨h.held, h.clear, h.hwEnqueue, h.hwCycle, h.hwDequeue, h.told.trans (by omega), hlt, h.room⟩

lemma RingInv.finish (h : RingInv s events c e) (hd : DequeueAt (finishConsume s) c) :
    RingInv (finishConsume s) events c c := by
  have ht := h.told
  have hro := h.room
  have hde : (finishConsume s).hwDequeue = c % xhciTrbsPerSegment := by
    rw [← hd.dequeue]
    rfl
  have hf : (finishConsume s).eventRing = s.eventRing ∧
      (finishConsume s).hwEnqueue = s.hwEnqueue ∧ (finishConsume s).hwCycle = s.hwCycle := by
    unfold finishConsume
    split_ifs <;> exact ⟨rfl, rfl, rfl⟩
  obtain ⟨hr, he, hc⟩ := hf
  exact ⟨hr ▸ h.held, hr ▸ h.clear, he.trans h.hwEnqueue, hc.trans h.hwCycle, hde,
    le_rfl, h.taken, by omega⟩

end Laps

section Takings

def PhaseAt (s : Xhci) (events : List UsbEvent) (c : ℕ) : Prop :=
  match s.wait with
  | .idle | .look _ => DequeueAt s c
  | .copied _ event => DequeueAt s c ∧ events[c]? = some event
  | .bumped _ _ => ∃ c', c = c' + 1 ∧ SteppedPast s c'

structure XhciInv (s : Xhci) (events : List UsbEvent) (c e : ℕ) (old : List ℕ) : Prop where
  ring : RingInv s events c e
  phase : PhaseAt s events c
  taken : s.taken.map (·.event.num) = old ++ (events.take c).map (·.num)
  nums : (old ++ events.map (·.num)).Pairwise (· < ·)
  below : ∀ n ∈ old ++ events.map (·.num), n < s.posted
  busy : s.pollBusy = s.poll.isSome
  polled : ∀ k ∈ s.taken, k.reader = .poll → k.waitedFor = none

variable {s s' : Xhci} {events : List UsbEvent} {event : UsbEvent} {c e : ℕ} {old : List ℕ}

lemma XhciInv.taken_pairwise (h : XhciInv s events c e old) :
    (s.taken.map (·.event.num)).Pairwise (· < ·) := by
  rw [h.taken]
  have hp : old ++ (events.take c).map (·.num) <+: old ++ events.map (·.num) := by
    rw [prefix_append_right_inj]
    exact ( take_prefix c events).map _
  exact h.nums.sublist hp.sublist

lemma XhciInv.oneReader (h : XhciInv s events c e old) : OneReader s := by
  refine ⟨fun k hk hp => ?_, h.taken_pairwise.imp fun hlt => hlt.ne⟩
  rw [h.polled k hk hp]
  exact Option.some_ne_none _ ∘ Eq.symm

lemma map_num_take (he : events[c]? = some event) :
    (events.take (c + 1)).map (·.num) = (events.take c).map (·.num) ++ [event.num] := by
  rw [take_add_one, he]
  simp

/-- Where the boot path is depends on the dequeue pointer and on the events it may have copied. -/
lemma PhaseAt.congr {events' : List UsbEvent} (h : PhaseAt s events c) (hw : s'.wait = s.wait)
    (hd : s'.eventDequeue = s.eventDequeue) (hc : s'.eventCcs = s.eventCcs)
    (hev : ∀ event, events[c]? = some event → events'[c]? = some event) : PhaseAt s' events' c := by
  have hk : DequeueAt s c → DequeueAt s' c := fun h => ⟨hd.trans h.dequeue, hc.trans h.ccs⟩
  unfold PhaseAt at h ⊢
  rw [hw]
  rcases hs : s.wait with _ | _ | _ | _ <;> rw [hs] at h
  · exact hk h
  · exact hk h
  · exact ⟨hk h.1, hev _ h.2⟩
  · obtain ⟨c', hc', hs'⟩ := h
    exact ⟨c', hc', hd.trans hs'.dequeue, hc.trans hs'.ccs⟩

lemma bootXhci_inv (frame : ℕ → EventSlot) : XhciInv (bootXhci frame) [] 0 0 [] := by
  refine ⟨⟨.nil _ _, ?_, rfl, rfl, rfl, le_rfl, le_rfl, by decide⟩, ⟨rfl, rfl⟩, rfl, ?_, ?_,
    rfl, ?_⟩
  · intro i _ hi
    simp [bootXhci, hi]
  · simp
  · simp
  · simp [bootXhci]

section

variable (h : XhciInv s events c e old)
include h

lemma XhciInv.bringUp (hf : s.Free) (frame : ℕ → EventSlot) (devices : List UsbDevice) :
    XhciInv (xhciForget s frame devices) [] 0 0 (old ++ (events.take c).map (·.num)) := by
  have ht := h.taken_pairwise
  rw [h.taken] at ht
  refine ⟨⟨.nil _ _, ?_, rfl, rfl, rfl, le_rfl, le_rfl, by decide⟩, ?_, ?_, ?_, ?_, h.busy,
    h.polled⟩
  · intro i _ hi
    simp [xhciForget, hi]
  · simp only [PhaseAt, xhciForget, hf.1]
    exact ⟨rfl, rfl⟩
  · simpa [xhciForget] using h.taken
  · simpa using ht
  · intro n hn
    refine h.below n ?_
    simp only [map_nil, append_nil, mem_append] at hn ⊢
    exact hn.imp_right fun hmem => ((( take_prefix c events).map _).subset hmem)

lemma XhciInv.post (type slot endpoint code residual : ℕ) :
    ∃ events', XhciInv (postEvent s type slot endpoint code residual) events' c e old := by
  by_cases hf : (s.hwEnqueue + 1) % xhciTrbsPerSegment = s.hwDequeue
  · refine ⟨events, ?_⟩
    rw [postEvent, if_pos hf]
    exact h
  have hr := h.ring.post type slot endpoint code residual hf
  rw [postEvent, if_neg hf] at hr ⊢
  refine ⟨_, hr, h.phase.congr rfl rfl rfl fun _ he => ?_, ?_, ?_, ?_, h.busy, h.polled⟩
  · rw [getElem?_append_left (List.getElem?_eq_some_iff.1 he).1]
    exact he
  · rw [take_append_of_le_length h.ring.taken]
    exact h.taken
  · rw [map_append, ← append_assoc]
    refine pairwise_append.2 ⟨h.nums, by simp, ?_⟩
    simpa using h.below
  · rw [map_append, ← append_assoc]
    intro n hn
    rcases mem_append.1 hn with ho | hne
    · exact (h.below n ho).trans (by simp)
    · simp only [map_cons, map_nil, mem_singleton] at hne
      simp [hne]

lemma XhciInv.moved (hr : RingInv s' events c e)
    (hph : PhaseAt s' events c) (ht : s'.taken = s.taken) (hp : s'.posted = s.posted)
    (hb : s'.pollBusy = s'.poll.isSome) : XhciInv s' events c e old :=
  ⟨hr, hph, by rw [ht]; exact h.taken, h.nums, by rw [hp]; exact h.below, hb,
    by rw [ht]; exact h.polled⟩

end

lemma PhaseAt.of_idle (h : PhaseAt s events c) (hi : s.wait = .idle) : DequeueAt s c := by
  unfold PhaseAt at h
  rwa [hi] at h

section

variable (h : XhciInv s events c e old)
include h

lemma XhciInv.beginWait (hf : s.Free) (want : ℕ) :
    XhciInv { s with wait := .look want } events c e old := by
  have hd := h.phase.of_idle hf.1
  exact h.moved (h.ring.congr rfl rfl rfl rfl) ⟨hd.dequeue, hd.ccs⟩ rfl rfl h.busy

lemma XhciInv.wait : ∃ c' e', XhciInv (waitStep s) events c' e' old := by
  unfold waitStep
  split_ifs
  · exact ⟨c, e, h⟩
  have hph := h.phase
  unfold PhaseAt at hph
  rcases hw : s.wait with _ | want | ⟨want, event⟩ | ⟨want, event⟩ <;> rw [hw] at hph
  · exact ⟨c, e, h⟩
  · -- the record is looked at
    rw [xhciNextEvent_eq h.ring hph]
    rcases he : events[c]? with _ | event
    · exact ⟨c, e, h⟩
    · refine ⟨c, e, h.moved (h.ring.congr rfl rfl rfl rfl) ?_ rfl rfl h.busy⟩
      exact ⟨⟨hph.dequeue, hph.ccs⟩, he⟩
  · -- it is taken when the dequeue pointer leaves it
    obtain ⟨hd, he⟩ := hph
    have hlt := (List.getElem?_eq_some_iff.1 he).1
    refine ⟨c + 1, e, (h.ring.take hlt).congr rfl rfl rfl rfl, ?_, ?_, h.nums, h.below, h.busy, ?_⟩
    · exact ⟨c, rfl, hd.bump.dequeue, hd.bump.ccs⟩
    · simp only [Xhci.take, bumpDequeue, map_append, map_cons, map_nil, h.taken, map_num_take he,
        append_assoc]
    · simp only [Xhci.take, bumpDequeue, mem_append, mem_singleton]
      rintro k (hk | rfl) hp'
      · exact h.polled k hk hp'
      · exact absurd hp' (by simp)
  · obtain ⟨c', rfl, hd⟩ := hph
    have hd' := hd.finish
    have hr := h.ring.finish hd'
    have hf : (finishConsume s).poll = s.poll ∧ (finishConsume s).pollBusy = s.pollBusy ∧
        (finishConsume s).taken = s.taken ∧ (finishConsume s).posted = s.posted := by
      unfold finishConsume
      split_ifs <;> exact ⟨rfl, rfl, rfl, rfl⟩
    obtain ⟨hp, hb, ht, hpo⟩ := hf
    refine ⟨c' + 1, c' + 1, hr.congr rfl rfl rfl rfl, ?_, ?_, h.nums, ?_, ?_, ?_⟩
    · dsimp only
      split_ifs <;> exact ⟨hd'.dequeue, hd'.ccs⟩
    · exact (congrArg _ ht).trans h.taken
    · simpa [hpo] using h.below
    · simp [hb, hp, h.busy]
    · simpa [ht] using h.polled

lemma XhciInv.timeout : XhciInv (waitTimeout s) events c e old := by
  have hp := h.phase
  unfold PhaseAt at hp
  unfold waitTimeout
  split
  · exact h
  rcases hw : s.wait with _ | want | _ | _
  · exact h
  · rw [hw] at hp
    split_ifs
    · exact h.moved (h.ring.congr rfl rfl rfl rfl) ⟨hp.dequeue, hp.ccs⟩ rfl rfl h.busy
    · exact h
  · exact h
  · exact h

lemma XhciInv.pollEnter (caller : PollCaller) : XhciInv (pollEnter s caller) events c e old := by
  unfold EsdumanOS.pollEnter
  split_ifs
  · exact h
  · exact h
  · exact h
  · exact h.moved (h.ring.congr rfl rfl rfl rfl) (h.phase.congr rfl rfl rfl fun _ => id) rfl rfl rfl

lemma XhciInv.pollStep (hs : ¬ PollInWait s .pollOn) :
    ∃ c' e', XhciInv (pollStep s) events c' e' old := by
  unfold EsdumanOS.pollStep
  rcases hp : s.poll with _ | ⟨caller, drained⟩
  · exact ⟨c, e, h⟩
  have hl : XhciInv { s with pollBusy := false, poll := none } events c e old :=
    h.moved (h.ring.congr rfl rfl rfl rfl) (h.phase.congr rfl rfl rfl fun _ => id) rfl rfl rfl
  rcases hev : xhciNextEvent s with _ | event
  · exact ⟨c, e, hl⟩
  -- an event is found, so nobody waits
  have hi : s.wait = .idle := by
    by_contra hne
    exact hs ⟨by simp [hp], hne, by simp [hev]⟩
  have hd := h.phase.of_idle hi
  have he : events[c]? = some event := (xhciNextEvent_eq h.ring hd).symm.trans hev
  dsimp only
  split_ifs
  · have hlt := (List.getElem?_eq_some_iff.1 he).1
    have hd' : DequeueAt (xhciConsumeEvent s) (c + 1) := hd.bump.finish
    have hr : RingInv (xhciConsumeEvent s) events (c + 1) (c + 1) :=
      ((h.ring.take hlt).congr rfl rfl rfl rfl :
        RingInv (bumpDequeue s) events (c + 1) e).finish hd'
    have hf : (xhciConsumeEvent s).wait = s.wait ∧ (xhciConsumeEvent s).pollBusy = s.pollBusy ∧
        (xhciConsumeEvent s).taken = s.taken ∧ (xhciConsumeEvent s).posted = s.posted := by
      unfold xhciConsumeEvent finishConsume bumpDequeue
      split_ifs <;> exact ⟨rfl, rfl, rfl, rfl⟩
    obtain ⟨hw, hb, ht, hpo⟩ := hf
    refine ⟨c + 1, c + 1, hr.congr rfl rfl rfl rfl, ?_, ?_, h.nums, ?_, ?_, ?_⟩
    · simp only [Xhci.take, hw, hi]
      exact ⟨hd'.dequeue, hd'.ccs⟩
    · simp only [Xhci.take, map_append, map_cons, map_nil, ht, h.taken, map_num_take he,
        append_assoc]
    · simpa [Xhci.take, hpo] using h.below
    · simp [Xhci.take, hb, h.busy, hp]
    · simp only [Xhci.take, ht, hw, hi, mem_append, mem_singleton]
      rintro k (hk | rfl) hp'
      · exact h.polled k hk hp'
      · rfl
  · exact ⟨c, e, hl⟩

end

end Takings

section Runs

variable {s : Xhci}

/-- With no poll inside a wait, each step keeps the ring in step. -/
lemma usbStep_inv (s : Xhci) (step : UsbStep) (h : ∃ events c e old, XhciInv s events c e old)
    (hs : ¬ PollInWait s step) : ∃ events c e old, XhciInv (usbStep s step) events c e old := by
  obtain ⟨events, c, e, old, h⟩ := h
  cases step with
  | bringUp frame devices =>
    simp only [usbStep]
    split_ifs with hf
    · exact ⟨_, _, _, _, h.bringUp hf frame devices⟩
    · exact ⟨_, _, _, _, h⟩
  | arm =>
    simp only [usbStep]
    split_ifs with hf
    · exact ⟨events, c, e, old, h.moved (h.ring.congr rfl rfl rfl rfl)
        (h.phase.congr rfl rfl rfl fun _ => id) rfl rfl h.busy⟩
    · exact ⟨_, _, _, _, h⟩
  | post type slot endpoint code residual =>
    obtain ⟨events', h'⟩ := h.post type slot endpoint code residual
    exact ⟨_, _, _, _, h'⟩
  | beginWait want =>
    simp only [usbStep]
    split_ifs with hf
    · exact ⟨_, _, _, _, h.beginWait hf want⟩
    · exact ⟨_, _, _, _, h⟩
  | wait =>
    obtain ⟨c', e', h'⟩ := h.wait
    exact ⟨_, _, _, _, h'⟩
  | timeout => exact ⟨_, _, _, _, h.timeout⟩
  | poll caller => exact ⟨_, _, _, _, h.pollEnter caller⟩
  | pollOn =>
    obtain ⟨c', e', h'⟩ := h.pollStep hs
    exact ⟨_, _, _, _, h'⟩

/-- In every run in which no tick finds an event while the boot path waits for one. -/
theorem usbRun_oneReader (frame : ℕ → EventSlot) (steps : List UsbStep)
    (hsteps : StepsMeet usbStep (fun s step => ¬ PollInWait s step) (bootXhci frame) steps) :
    OneReader (usbRun (bootXhci frame) steps) := by
  have hboot : ∃ events c e old, XhciInv (bootXhci frame) events c e old :=
    ⟨_, _, _, _, bootXhci_inv frame⟩
  obtain ⟨events, c, e, old, h⟩ := foldl_induction usbStep_inv steps hboot hsteps
  exact h.oneReader

def answered (want : ℕ) : List UsbStep :=
  [.beginWait want, .post want 1 1 completionSuccess 0, .wait, .wait, .wait]

/-- `xhci_init`: the command that proves the rings, two commands and a transfer, and the flag. -/
def initRun : List UsbStep :=
  answered trbCommandComplete ++ answered trbCommandComplete ++ answered trbCommandComplete ++
    answered trbTransferEvent ++ [.arm]

/-- `xhci_init`, then a tick, a wait of `usbmsc_init` with a tick before the answer is there, and a
bulk transfer that polls. -/
theorem usbRun_oneReader_sample :
    let steps :=
      initRun ++ [.poll .tick, .pollOn, .beginWait trbTransferEvent, .poll .tick, .pollOn,
        .post trbTransferEvent 1 1 completionSuccess 0, .wait, .wait, .wait] ++
      [.post trbTransferEvent 1 3 completionSuccess 0, .poll .bootPath, .poll .tick, .pollOn]
    StepsMeet usbStep (fun s step => ¬ PollInWait s step)
      (bootXhci fun _ => ⟨0, ⟨0, 0, 0, 0, 0, 0⟩⟩)
        steps ∧
      OneReader (usbRun (bootXhci fun _ => ⟨0, ⟨0, 0, 0, 0, 0, 0⟩⟩) steps) ∧
      ((usbRun (bootXhci fun _ => ⟨0, ⟨0, 0, 0, 0, 0, 0⟩⟩) steps).taken.map fun k =>
        (k.reader, k.event.num)) =
          [(.wait, 0), (.wait, 1), (.wait, 2), (.wait, 3), (.wait, 4), (.poll, 5)] := by
  intro steps
  have hsteps : StepsMeet usbStep (fun s step => ¬ PollInWait s step)
      (bootXhci fun _ => ⟨0, ⟨0, 0, 0, 0, 0, 0⟩⟩) steps := by
    decide +kernel
  exact ⟨hsteps, usbRun_oneReader _ steps hsteps, by decide +kernel⟩

/-- `usbmsc_init` configures the device and waits; the answer is there when the tick comes, and the
tick takes it. -/
theorem usbRun_tick_steals :
    let s := usbRun (bootXhci fun _ => ⟨0, ⟨0, 0, 0, 0, 0, 0⟩⟩) (initRun ++
      [.beginWait trbTransferEvent, .post trbTransferEvent 1 1 completionSuccess 0, .poll .tick,
        .pollOn, .pollOn, .wait])
    s.wait = .look trbTransferEvent ∧ xhciNextEvent s = none ∧
      ∃ k ∈ s.taken, k.reader = .poll ∧ k.waitedFor = some k.event.type := by
  decide +kernel

end Runs

end EsdumanOS
