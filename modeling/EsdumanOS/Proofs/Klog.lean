import EsdumanOS.Klog

/-!
# The log shows what it must

As long as the numbers do not wrap, the ring has the last 512 entries (`KlogInv`), and the floor is
the first after the last clear (`klogVisibleFloor_eq`). A process has passed over only what it has
read or what is below the floor (`Reading`).
-/

namespace EsdumanOS

open Lib List Function KlogSys UserLog

section Window

def klogRecordsOf (entries : List KlogEntry) : List KlogRecord :=
  entries.mapIdx fun i e => klogCompose (i + 1) e

def KlogSys.low (s : KlogSys) : ℕ :=
  s.stored.length - s.window

/-- The ring has the last 512 entries, and the floor is the first one after the last clear. -/
structure KlogInv (s : KlogSys) : Prop where
  seqNext : s.log.seqNext = s.stored.length + 1
  floorSeq : s.log.floorSeq + s.sinceClear = s.stored.length + 1
  since_le : s.sinceClear ≤ s.stored.length
  held : RingHolds klogRecords s.log.ring (klogRecordsOf s.stored) (s.stored.length - klogRecords)

variable {s : KlogSys} {n : ℕ} {e : KlogEntry}

/-- The text is cut at its end, and only if the record has no room for it. -/
lemma klogText_front (message tail : Option (List UInt8)) :
    klogText message tail <+: klogWhole message tail ∧ ((klogWhole message tail).length <
      klogTextMax → klogText message tail = klogWhole message tail) := by
  unfold klogText klogWhole klogCopy klogTextMax
  generalize message.getD [] = m
  have hcut : m.take 143 <+: m ++ [] ∧ ((m ++ []).length < 144 → m.take 143 = m ++ []) := by
    rw [append_nil]
    exact ⟨ take_prefix _ _, fun h => take_of_length_le (by omega)⟩
  rcases tail with _ | _ | ⟨c, l⟩
  · exact hcut
  · exact hcut
  · simp only [Option.getD_some, reduceCtorEq, if_false, length_append, length_cons]
    split_ifs with h
    · have hm : m.take 143 = m := take_of_length_le (by simp at h; omega)
      simp only [hm]
      refine ⟨( prefix_append_right_inj m).2 (cons_prefix_cons.2 ⟨rfl, take_prefix _ _⟩),
        fun hl => ?_⟩
      rw [take_of_length_le (by simp; omega)]
    · exact ⟨( take_prefix _ _).trans ( prefix_append _ _), fun hl => by simp at h; omega⟩

/-- A record keeps the numbers of its entry and the front of its texts. -/
lemma klogCompose_keeps (n : ℕ) (e : KlogEntry) :
    let r := klogCompose n e
    (r.seq, r.level, r.uid, r.ticks, r.fromUser) = (n, e.level, e.uid, e.ticks, e.fromUser) ∧
      r.moduleName <+: e.moduleName.getD [] ∧ r.text <+: klogWhole e.message e.tail ∧
      r.textLen = r.text.length :=
  ⟨rfl, take_prefix _ _, (klogText_front _ _).1, rfl⟩

lemma length_klogRecordsOf (entries : List KlogEntry) :
    (klogRecordsOf entries).length = entries.length := by
  simp [klogRecordsOf]

lemma klogRecordsOf_append (entries : List KlogEntry) (e : KlogEntry) :
    klogRecordsOf (entries ++ [e]) =
      klogRecordsOf entries ++ [klogCompose (entries.length + 1) e] := by
  simp [klogRecordsOf]

lemma KlogInv.window_le (h : KlogInv s) : s.window ≤ s.stored.length :=
  (min_le_right _ _).trans h.since_le

lemma klogVisibleFloor_eq (h : KlogInv s) : klogVisibleFloor s.log = s.low + 1 := by
  have hf := h.floorSeq
  unfold klogVisibleFloor low window
  rw [h.seqNext]
  dsimp only
  split_ifs <;> omega

lemma klogSlotFor_succ (hlt : n < 2 ^ 32 - 1) : klogSlotFor (n + 1) = n % klogRecords := by
  unfold klogSlotFor sub32
  rw [show n + 1 + 2 ^ 32 - 1 = n + 2 ^ 32 by omega, u32, Nat.add_mod_right,
    Nat.mod_eq_of_lt (show n < 2 ^ 32 by omega)]

section Numbered

variable (h : KlogInv s) (hlt : s.stored.length < 2 ^ 32 - 1)

include h hlt

lemma klogHeld_eq : klogHeld s.log = s.window := by
  have hw := h.window_le
  unfold klogHeld sub32 u32
  rw [klogVisibleFloor_eq h, h.seqNext, low]
  omega

lemma klogOldestSeq_eq : klogOldestSeq s.log = if s.window = 0 then 0 else s.low + 1 := by
  unfold klogOldestSeq
  rw [klogHeld_eq h hlt, klogVisibleFloor_eq h]

/-- The slot of a number that is shown has not been taken by a later entry. -/
lemma KlogInv.slot (hn : s.Shown n) :
    s.stored[n - 1]?.map (klogCompose n) = some (s.log.ring (klogSlotFor n)) := by
  obtain ⟨hl, hle⟩ := hn
  obtain ⟨i, rfl⟩ : ∃ i, n = i + 1 := ⟨n - 1, by omega⟩
  have hw : s.window ≤ klogRecords := min_le_left _ _
  have hslot := h.held.slot i (by omega) (by rw [length_klogRecordsOf]; omega)
  rw [klogRecordsOf, getElem?_mapIdx] at hslot
  rw [klogSlotFor_succ (by omega), Nat.add_sub_cancel]
  exact hslot

lemma klogBySeq_eq (n : ℕ) :
    klogBySeq s.log n = if s.Shown n then s.stored[n - 1]?.map (klogCompose n) else none := by
  have hl := klogVisibleFloor_eq h
  unfold klogBySeq
  rw [h.seqNext, hl]
  unfold low
  by_cases hn : s.Shown n
  · rw [if_neg (by unfold Shown at hn; omega),
      if_neg (by unfold Shown at hn; omega), if_pos hn, h.slot hlt hn]
    -- the slot has the number that was asked for, because the record was made with it
    have hs : (s.log.ring (klogSlotFor n)).seq = n := by
      obtain ⟨e, -, he⟩ := Option.map_eq_some_iff.1 (h.slot hlt hn)
      rw [← he]
      rfl
    simp [hs]
  · rw [if_neg hn]
    unfold Shown at hn
    by_cases ho : n = 0 ∨ n ≥ s.stored.length + 1
    · rw [if_pos ho]
    · rw [if_neg ho, if_pos (by omega)]

end Numbered

lemma klogBySeq_seq {k : Klog} {r : KlogRecord} (h : klogBySeq k n = some r) : r.seq = n := by
  unfold klogBySeq at h
  dsimp only at h
  split_ifs at h with _ _ hs
  obtain rfl := Option.some.inj h
  exact hs

lemma KlogInv.store (h : KlogInv s) (hlt : s.stored.length + 1 < 2 ^ 32 - 1) (e : KlogEntry) :
    KlogInv (s.store e) := by
  have hl := length_klogRecordsOf s.stored
  have hre : klogRecords = 512 := rfl
  refine ⟨?_, ?_, ?_, ?_⟩
  · simp only [KlogSys.store, klogStore, h.seqNext, length_append, length_singleton]
    exact u32_of_lt (by omega)
  · simp only [KlogSys.store, klogStore, length_append, length_singleton]
    have := h.floorSeq
    omega
  · simp only [KlogSys.store, length_append, length_singleton]
    have := h.since_le
    omega
  · -- the slot is that of the entry 512 places before, which is given up first
    have hk : RingHolds klogRecords s.log.ring (klogRecordsOf s.stored)
        (s.stored.length + 1 - klogRecords) := h.held.advance (by omega) (by omega)
    have hr := hk.push (by omega) (klogCompose (s.stored.length + 1) e)
    simp only [KlogSys.store, klogStore, h.seqNext, length_append, length_singleton,
      klogSlotFor_succ (show s.stored.length < 2 ^ 32 - 1 by omega), klogRecordsOf_append]
    rw [hl] at hr
    exact hr

end Window

section Format

variable {cap : ℕ} {line src : List UInt8}

lemma klogAppend_ne_nil (h : line ≠ []) : klogAppend cap line src ≠ [] := by
  simp [klogAppend, h]

lemma klogAppendNum_ne_nil {value width : ℕ} (h : line ≠ []) :
    klogAppendNum cap line value width ≠ [] :=
  klogAppend_ne_nil (klogAppend_ne_nil h)

lemma klogFormatKmsg_ne_nil (r : KlogRecord) : klogFormatKmsg r klogLineMax ≠ [] := by
  have hd : (if r.level = 0 then [ascii '0'] else decDigits 10 r.level) ≠ [] := by
    split_ifs with hv
    · simp
    · simp [decDigits, hv]
  have hn : klogAppendNum klogLineMax [] r.level 0 ≠ [] := by
    simp [klogAppendNum, klogAppend, klogLineMax, hd]
  unfold klogFormatKmsg
  have hl : klogAppend klogLineMax (klogAppendNum klogLineMax [] r.level 0) [ascii ','] ≠ [] :=
    klogAppend_ne_nil hn
  exact klogAppend_ne_nil (klogAppend_ne_nil (klogAppend_ne_nil (klogAppend_ne_nil
    (klogAppend_ne_nil (klogAppend_ne_nil (klogAppend_ne_nil (klogAppendNum_ne_nil
      (klogAppend_ne_nil (klogAppendNum_ne_nil hl)))))))))

end Format

section Reading

/-- Process `t` reads in order, and has passed over only what it read or what is not shown. -/
structure Reading (s : KlogSys) (t : ℕ) : Prop where
  cursor_le : s.cursors t ≤ s.stored.length + 1
  before : ∀ q ∈ s.reads t, q.seq < s.cursors t
  passed : ∀ m < s.cursors t, (∃ q ∈ s.reads t, m ≤ q.seq) ∨ m ≤ s.low
  increasing : (s.reads t).Pairwise (·.seq < ·.seq)

variable {s s' : KlogSys} {t : ℕ} {size : ℤ} {r : KlogRecord} {cursor : ℕ}

lemma Reading.mono (h : Reading s t) (hc : s'.cursors t = s.cursors t)
    (hr : s'.reads t = s.reads t) (hln : s.stored.length ≤ s'.stored.length)
    (hl : s.low ≤ s'.low) : Reading s' t := by
  obtain ⟨hle, hb, hp, hi⟩ := h
  rw [← hc] at hle hb hp
  rw [← hr] at hb hp hi
  exact ⟨by omega, hb, fun m hm => (hp m hm).imp_right (·.trans hl), hi⟩

lemma devKmsgRead_cases (k : Klog) (cursor : ℕ) (size : ℤ) :
    (∃ r b bs, (kmsgPick k cursor).1 = some r ∧
      b :: bs = (klogFormatKmsg r klogLineMax).take size.toNat ∧
      devKmsgRead k cursor size = (.inr (b :: bs), u32 ((kmsgPick k cursor).2 + 1))) ∨
    ((∀ b bs, (devKmsgRead k cursor size).1 ≠ .inr (b :: bs)) ∧
      ((devKmsgRead k cursor size).2 = cursor ∨
        (devKmsgRead k cursor size).2 = (kmsgPick k cursor).2)) := by
  unfold devKmsgRead
  split_ifs with hs
  · exact .inr ⟨by simp, .inl rfl⟩
  rcases hp : kmsgPick k cursor with ⟨_ | r, c⟩
  · exact .inr ⟨by simp, .inr rfl⟩
  · left
    have hl := klogFormatKmsg_ne_nil r
    have hle : (klogFormatKmsg r klogLineMax).length ≠ 0 := by simpa using hl
    rcases ht : (klogFormatKmsg r klogLineMax).take size.toNat with _ | ⟨b, bs⟩
    · rcases take_eq_nil_iff.1 ht with hz | hn
      · exact absurd hz (by omega)
      · exact absurd hn hl
    · exact ⟨r, b, bs, rfl, ht.symm, by simp only [if_neg hle, ht]⟩

lemma KlogSys.read_cases (s : KlogSys) (t : ℕ) (size : ℤ) :
    (∃ r b bs, (kmsgPick s.log (s.cursors t)).1 = some r ∧
      (devKmsgRead s.log (s.cursors t) size).1 = .inr (b :: bs) ∧
      b :: bs = (klogFormatKmsg r klogLineMax).take size.toNat ∧
      s.read t size = { s with
        cursors := update s.cursors t (u32 ((kmsgPick s.log (s.cursors t)).2 + 1))
        reads := update s.reads t (s.reads t ++ [r]) }) ∨
    ((∀ b bs, (devKmsgRead s.log (s.cursors t) size).1 ≠ .inr (b :: bs)) ∧
      ∃ c, (c = s.cursors t ∨ c = (kmsgPick s.log (s.cursors t)).2) ∧
        s.read t size = { s with cursors := update s.cursors t c }) := by
  rcases devKmsgRead_cases s.log (s.cursors t) size with ⟨r, b, bs, hr, hl, hre⟩ | ⟨hn, hc⟩
  · refine .inl ⟨r, b, bs, hr, by rw [hre], hl, ?_⟩
    unfold read
    simp only [hre, hr]
  · refine .inr ⟨hn, (devKmsgRead s.log (s.cursors t) size).2, hc, ?_⟩
    unfold read
    dsimp only
    split
    · rename_i heq _
      exact absurd heq (hn _ _)
    · rfl

lemma KlogInv.read (h : KlogInv s) (t : ℕ) (size : ℤ) : KlogInv (s.read t size) := by
  rcases s.read_cases t size with ⟨r, b, bs, -, -, -, hs⟩ | ⟨-, c, -, hs⟩ <;> rw [hs] <;>
    exact ⟨h.seqNext, h.floorSeq, h.since_le, h.held⟩

section Cursor

variable (h : KlogInv s) (hlt : s.stored.length < 2 ^ 32 - 1)

include h hlt

lemma kmsgPick_cursor (cursor : ℕ) :
    (kmsgPick s.log cursor).2 = if s.window = 0 then cursor else max cursor (s.low + 1) := by
  unfold kmsgPick
  rw [klogOldestSeq_eq h hlt]
  by_cases hw : s.window = 0
  · simp [hw]
  · simp only [if_neg hw, Nat.succ_ne_zero, ↓reduceIte]
    split_ifs <;> omega

lemma kmsgPick_some (hr : (kmsgPick s.log cursor).1 = some r) :
    klogBySeq s.log (max cursor (s.low + 1)) = some r ∧
      (kmsgPick s.log cursor).2 = max cursor (s.low + 1) := by
  have hc := kmsgPick_cursor h hlt cursor
  unfold kmsgPick at hr hc ⊢
  rw [klogOldestSeq_eq h hlt] at hr hc ⊢
  by_cases hw : s.window = 0
  · simp [hw] at hr
  · simp only [if_neg hw, Nat.succ_ne_zero, ↓reduceIte] at hr hc ⊢
    rw [hc] at hr
    exact ⟨hr, hc⟩

/-- A cursor that a read moves without a record stops at the first that is shown: it has passed
over nothing that the process could still have read. -/
lemma Reading.moved (hr : Reading s t) (hre : s'.reads t = s.reads t) (hs : s'.stored = s.stored)
    (hlo : s'.low = s.low)
    (hcu : s'.cursors t = s.cursors t ∨ s'.cursors t = (kmsgPick s.log (s.cursors t)).2) :
    Reading s' t := by
  obtain ⟨hle, hb, hp, hi⟩ := hr
  have hc' : s'.cursors t = s.cursors t ∨ s'.cursors t = max (s.cursors t) (s.low + 1) := by
    rcases hcu with hc | hc
    · exact .inl hc
    · rw [kmsgPick_cursor h hlt] at hc
      split_ifs at hc
      · exact .inl hc
      · exact .inr hc
  have hl : s.low ≤ s.stored.length := Nat.sub_le _ _
  have hge : s.cursors t ≤ s'.cursors t := by omega
  refine ⟨?_, ?_, ?_, ?_⟩
  · rw [hs]
    omega
  · rw [hre]
    exact fun q hq => (hb q hq).trans_le hge
  · rw [hre, hlo]
    intro m hm
    by_cases ho : m < s.cursors t
    · exact hp m ho
    · exact .inr (by omega)
  · rw [hre]
    exact hi

/-- The record a read picks is shown, and nothing that is shown was left out before it. -/
lemma Reading.delivered (hr : Reading s t)
    (hp : (kmsgPick s.log (s.cursors t)).1 = some r) :
    klogBySeq s.log r.seq = some r ∧ (kmsgPick s.log (s.cursors t)).2 = r.seq ∧
      r.seq ≤ s.stored.length ∧ (∀ q ∈ s.reads t, q.seq < r.seq) ∧
      ∀ m < r.seq, (∃ q ∈ s.reads t, m ≤ q.seq) ∨ m ≤ s.low := by
  obtain ⟨hb, hc⟩ := kmsgPick_some h hlt hp
  have hse := klogBySeq_seq hb
  rw [← hse] at hb hc
  refine ⟨hb, hc, ?_, fun q hq => ?_, fun m hm => ?_⟩
  · rw [klogBySeq_eq h hlt] at hb
    split_ifs at hb with hs
    exact hs.2
  · exact (hr.before q hq).trans_le (by omega)
  · by_cases ho : m < s.cursors t
    · exact hr.passed m ho
    · exact .inr (by omega)

lemma Reading.read (hr : ∀ u, Reading s u) (t u : ℕ) (size : ℤ) : Reading (s.read t size) u := by
  rcases s.read_cases t size with ⟨r, b, bs, hp, -, -, hs⟩ | ⟨-, c, hc, hs⟩ <;> rw [hs]
  · by_cases hu : u = t
    · subst hu
      obtain ⟨-, hcu, hle, hb, hpa⟩ := Reading.delivered h hlt (hr u) hp
      have hn : u32 (r.seq + 1) = r.seq + 1 := u32_of_lt (by omega)
      refine ⟨?_, ?_, ?_, ?_⟩
      · simp only [update_self, hcu, hn]
        omega
      · simp only [update_self, hcu, hn, mem_append, mem_singleton]
        rintro q (hq | rfl)
        · have := hb q hq
          omega
        · omega
      · simp only [update_self, hcu, hn, mem_append, mem_singleton]
        exact fun m hm => .inl ⟨r, .inr rfl, by omega⟩
      · simp only [update_self]
        exact pairwise_append.2 ⟨(hr u).increasing, by simp, by simpa using hb⟩
    · exact (hr u).mono (update_of_ne hu _ _) (update_of_ne hu _ _) le_rfl le_rfl
  · by_cases hu : u = t
    · subst hu
      refine .moved h hlt (hr u) rfl rfl rfl ?_
      simpa using hc
    · exact (hr u).mono (update_of_ne hu _ _) rfl le_rfl le_rfl

end Cursor

end Reading

section Runs

variable {s : KlogSys}

structure KlogSysInv (s : KlogSys) : Prop where
  log : KlogInv s
  reading : ∀ t, Reading s t

lemma bootKlog_inv : KlogSysInv bootKlog := by
  refine ⟨⟨rfl, rfl, le_rfl, .nil _ _⟩, fun t => ⟨Nat.zero_le _, ?_, ?_, ?_⟩⟩
  · simp [bootKlog]
  · simp [bootKlog]
  · simp [bootKlog]

lemma KlogSysInv.store (h : KlogSysInv s) (hlt : s.stored.length + 1 < 2 ^ 32 - 1)
    (e : KlogEntry) : KlogSysInv (s.store e) := by
  refine ⟨h.log.store hlt e, fun t => (h.reading t).mono rfl rfl (by simp [KlogSys.store]) ?_⟩
  simp only [KlogSys.low, KlogSys.window, KlogSys.store, length_append, length_singleton]
  omega

lemma KlogSysInv.congr (h : KlogSysInv s) {log : Klog} (hr : log.ring = s.log.ring)
    (hn : log.seqNext = s.log.seqNext) (hf : log.floorSeq = s.log.floorSeq) :
    KlogSysInv { s with log := log } :=
  ⟨⟨hn.trans h.log.seqNext, by rw [hf]; exact h.log.floorSeq, h.log.since_le,
    by rw [hr]; exact h.log.held⟩, fun t => (h.reading t).mono rfl rfl le_rfl le_rfl⟩

lemma klogUserRecord_cases (s : KlogSys) (level : ℤ) (text : Option (List UInt8)) (uid now : ℕ) :
    ∃ log, (log.ring = s.log.ring ∧ log.seqNext = s.log.seqNext ∧ log.floorSeq = s.log.floorSeq) ∧
      ((klogUserRecord s level text uid now).2 = { s with log := log } ∨
        ∃ e, (klogUserRecord s level text uid now).2 = { s with log := log }.store e) := by
  unfold klogUserRecord
  cases text with
  | none => exact ⟨s.log, ⟨rfl, rfl, rfl⟩, .inl rfl⟩
  | some text =>
    dsimp only
    split_ifs
    · exact ⟨_, by exact ⟨rfl, rfl, rfl⟩, .inl rfl⟩
    · exact ⟨_, by exact ⟨rfl, rfl, rfl⟩, .inr ⟨_, rfl⟩⟩
    · exact ⟨_, by exact ⟨rfl, rfl, rfl⟩, .inl rfl⟩
    · exact ⟨_, by exact ⟨rfl, rfl, rfl⟩, .inr ⟨_, rfl⟩⟩

lemma klogStep_stored (s : KlogSys) (call : KlogCall) :
    s.stored.length ≤ (klogStep s call).stored.length := by
  cases call with
  | emit level moduleName message tail now =>
    simp only [klogStep, klogEmit]
    split_ifs <;> simp [store]
  | user level text uid now =>
    simp only [klogStep]
    obtain ⟨log, -, hs | ⟨e, hs⟩⟩ := klogUserRecord_cases s level text uid now <;> rw [hs]
    simp [store]
  | read t size =>
    simp only [klogStep]
    rcases s.read_cases t size with ⟨r, b, bs, -, -, -, hs⟩ | ⟨-, c, -, hs⟩ <;> rw [hs]
  | _ => exact le_rfl

lemma klogStep_inv (s : KlogSys) (call : KlogCall) (h : KlogSysInv s)
    (hlt : (klogStep s call).stored.length < 2 ^ 32 - 1) : KlogSysInv (klogStep s call) := by
  cases call with
  | emit level moduleName message tail now =>
    simp only [klogStep, klogEmit] at hlt ⊢
    split_ifs at hlt ⊢
    · exact h
    · exact h.store (by simpa [store] using hlt) _
  | user level text uid now =>
    simp only [klogStep] at hlt ⊢
    obtain ⟨log, ⟨hr, hn, hf⟩, hs | ⟨e, hs⟩⟩ :=
      klogUserRecord_cases s level text uid now <;> rw [hs] at hlt ⊢
    · exact h.congr hr hn hf
    · exact (h.congr hr hn hf).store (by simpa [store] using hlt) e
  | setLevel level => exact h.congr rfl rfl rfl
  | clear =>
    refine ⟨⟨h.log.seqNext, h.log.seqNext, Nat.zero_le _, h.log.held⟩, fun t => ?_⟩
    exact (h.reading t).mono rfl rfl le_rfl (Nat.sub_le_sub_left (by simp [window, klogStep]) _)
  | read t size =>
    have hl' : s.stored.length < 2 ^ 32 - 1 := (klogStep_stored s (.read t size)).trans_lt hlt
    exact ⟨h.log.read t size, fun u => .read h.log hl' h.reading t u size⟩
  | spawn t =>
    refine ⟨⟨h.log.seqNext, h.log.floorSeq, h.log.since_le, h.log.held⟩, fun u => ?_⟩
    by_cases hu : u = t
    · subst hu
      refine ⟨?_, ?_, ?_, ?_⟩ <;> simp [klogStep]
    · exact (h.reading u).mono (update_of_ne hu _ _) (update_of_ne hu _ _) le_rfl
        le_rfl
  | fork parent child =>
    refine ⟨⟨h.log.seqNext, h.log.floorSeq, h.log.since_le, h.log.held⟩, fun u => ?_⟩
    by_cases hu : u = child
    · subst hu
      obtain ⟨hle, hb, hp, hi⟩ := h.reading parent
      refine ⟨?_, ?_, ?_, ?_⟩ <;> simp only [klogStep, update_self]
      · exact hle
      · exact hb
      · exact hp
      · exact hi
    · exact (h.reading u).mono (update_of_ne hu _ _) (update_of_ne hu _ _) le_rfl
        le_rfl

lemma klogRun_inv (calls : List KlogCall)
    (hlt : (klogRun bootKlog calls).stored.length < 2 ^ 32 - 1) :
    KlogSysInv (klogRun bootKlog calls) := by
  -- the bound at the end is a bound all along, since entries are only added
  have hst : ∀ s call, (s.stored.length < 2 ^ 32 - 1 → KlogSysInv s) →
      (klogStep s call).stored.length < 2 ^ 32 - 1 → KlogSysInv (klogStep s call) :=
    fun s call h hs => klogStep_inv s call (h ((klogStep_stored s call).trans_lt hs)) hs
  exact foldl_invariant hst calls (fun _ => bootKlog_inv) hlt

lemma KlogSysInv.exact (h : KlogSysInv s) (hlt : s.stored.length < 2 ^ 32 - 1) : KlogExact s := by
  refine ⟨klogBySeq_eq h.log hlt, klogHeld_eq h.log hlt, klogOldestSeq_eq h.log hlt,
    fun t => (h.reading t).increasing, fun t size b bs hr => ?_⟩
  rcases s.read_cases t size with ⟨r, b', bs', hpi, hr', hl, hs⟩ | ⟨hn, -⟩
  · obtain ⟨hby, -, -, hb, hp⟩ := Reading.delivered h.log hlt (h.reading t) hpi
    rw [hr', Sum.inr.injEq] at hr
    refine ⟨r.seq, r, hby, by rw [hs]; simp, hr ▸ hl, hb, fun m hm hq hsh => ?_⟩
    rcases hp m hm with ⟨q, hmem, hle⟩ | hlo
    · exact absurd (hq q hmem) (by omega)
    · exact absurd hsh.1 (not_lt.2 hlo)
  · exact absurd hr (hn b bs)

/-- In every run from boot that stores fewer than `2 ^ 32 - 1` records. -/
theorem klogRun_exact (calls : List KlogCall)
    (hlt : (klogRun bootKlog calls).stored.length < 2 ^ 32 - 1) :
    KlogExact (klogRun bootKlog calls) :=
  (klogRun_inv calls hlt).exact hlt

def sampleLog : List KlogCall :=
  [.emit 1 (some (asciiText "VFS")) (some (asciiText "mounted")) none 5,
    .emit 2 (some (asciiText "PIPE")) (some (asciiText "broken")) none 6, .clear,
    .emit 3 (some (asciiText "NET")) (some (asciiText "down")) (some (asciiText "7")) 9,
    .read 4 200]

/-- Only the third record is shown, and the reader has passed over the two that were cleared. -/
theorem klogRun_exact_sample :
    KlogExact (klogRun bootKlog sampleLog) ∧ klogBySeq (klogRun bootKlog sampleLog).log 2 = none ∧
      (klogRun bootKlog sampleLog).cursors 4 = 4 ∧ (klogRun bootKlog sampleLog).reads 4 =
        [⟨3, 9, 0, 3, false, 6, asciiText "NET", asciiText "down 7"⟩] :=
  ⟨klogRun_exact sampleLog (by decide +kernel), by decide +kernel, by decide +kernel,
    by decide +kernel⟩

end Runs

section Rate

variable {s : UserLog} {c : UserCall}

/-- The window is open since `o`; of the one before it, no more than a burst is still near. -/
structure UserLogInv (s : UserLog) : Prop where
  bounded : ∀ a, s.acceptedFrom a ≤ 2 * klogUserBurst
  opened : s.accepted = [] ∧ s.sys.log.userWindowEnd = 0 ∨ ∃ o ≤ s.tick,
    o / 2 ^ 32 = s.tick / 2 ^ 32 ∧ s.sys.log.userWindowEnd = o % 2 ^ 32 + klogUserWindow ∧
    s.accepted.countP (o ≤ ·) = s.sys.log.userInWindow ∧ s.sys.log.userInWindow ≤ klogUserBurst ∧
    s.accepted.countP (fun t => t < o ∧ o < t + klogUserWindow) ≤ klogUserBurst ∧
    ∀ t ∈ s.accepted, t < o + klogUserWindow

lemma countP_le_add {p q r : ℕ → Bool} (l : List ℕ) (h : ∀ t, p t → q t || r t) :
    l.countP p ≤ l.countP q + l.countP r := by
  induction l with
  | nil => simp
  | cons t l ih =>
    have := h t
    simp only [countP_cons]
    grind

/-- From the start of a window on, two bursts are in sight at most. -/
lemma acceptedFrom_le {l : List ℕ} {o a : ℕ} (ha : o < a + klogUserWindow)
    (hc : l.countP (o ≤ ·) ≤ klogUserBurst)
    (hp : l.countP (fun t => t < o ∧ o < t + klogUserWindow) ≤ klogUserBurst) :
    l.countP (fun t => a ≤ t ∧ t < a + klogUserWindow) ≤ 2 * klogUserBurst := by
  have := @countP_le_add (fun t => a ≤ t ∧ t < a + klogUserWindow) (o ≤ ·)
    (fun t => t < o ∧ o < t + klogUserWindow) l fun t => by simp; omega
  omega

/-- When a window is opened, the calls of the one before it are past, and all that is near. -/
lemma UserLogInv.reopen (h : UserLogInv s) {τ : ℕ} (hτ : s.tick ≤ τ)
    (hle : s.sys.log.userWindowEnd ≤ u32 τ) : (∀ t ∈ s.accepted, t < τ) ∧
      s.accepted.countP (fun t => t < τ ∧ τ < t + klogUserWindow) ≤ klogUserBurst := by
  rcases h.opened with ⟨hnil, -⟩ | ⟨o, ho, hper, hw, hcnt, hb, -, hlt⟩
  · simp [hnil]
  · have hoτ : o + klogUserWindow ≤ τ := by
      unfold u32 at hle
      unfold klogUserWindow at hw ⊢
      omega
    refine ⟨fun t ht => by have := hlt t ht; omega, le_trans (countP_mono_left fun t _ h => ?_)
      (hcnt.trans_le hb)⟩
    simp only [decide_eq_true_eq] at h ⊢
    omega

/-- A call that is accepted in the window that is open since `o`. -/
lemma UserLogInv.push (h : UserLogInv s) {o τ : ℕ} {sys : KlogSys} (ho : o ≤ τ)
    (hτ : τ < o + klogUserWindow) (hper : o / 2 ^ 32 = τ / 2 ^ 32)
    (hw : sys.log.userWindowEnd = o % 2 ^ 32 + klogUserWindow)
    (hcnt : s.accepted.countP (o ≤ ·) + 1 = sys.log.userInWindow)
    (hb : sys.log.userInWindow ≤ klogUserBurst)
    (hp : s.accepted.countP (fun t => t < o ∧ o < t + klogUserWindow) ≤ klogUserBurst)
    (hlt : ∀ t ∈ s.accepted, t < o + klogUserWindow) : UserLogInv ⟨sys, τ, τ :: s.accepted⟩ := by
  have hc : (τ :: s.accepted).countP (o ≤ ·) = sys.log.userInWindow := by
    rw [countP_cons_of_pos (by simpa using ho), hcnt]
  have hn : (τ :: s.accepted).countP (fun t => t < o ∧ o < t + klogUserWindow) ≤ klogUserBurst := by
    rwa [countP_cons_of_neg (by simp; omega)]
  refine ⟨fun a => ?_, .inr ⟨o, ho, hper, hw, hc, hb, hn, forall_mem_cons.2 ⟨hτ, hlt⟩⟩⟩
  by_cases ha : o < a + klogUserWindow
  · exact acceptedFrom_le ha (hc.trans_le hb) hn
  · refine le_trans (le_of_eq (countP_cons_of_neg ?_)) (h.bounded a)
    simp only [decide_eq_true_eq]
    omega

lemma userStep_inv (s : UserLog) (c : UserCall) (h : UserLogInv s) (hn : NoWrap s c) :
    UserLogInv (userStep s c) := by
  obtain ⟨hend, hper⟩ := hn
  by_cases hle : s.sys.log.userWindowEnd ≤ u32 (s.tick + c.elapsed)
  · obtain ⟨hpast, hnear⟩ := h.reopen (Nat.le_add_right _ _) hle
    have hz : ¬ klogUserBurst ≤ 0 := by decide
    simp only [userStep, call, klogUserRecord, if_pos hle, hz, if_false, if_true]
    have hnone : s.accepted.countP (s.tick + c.elapsed ≤ ·) = 0 := by
      simpa [countP_eq_zero] using hpast
    refine h.push le_rfl (Nat.lt_add_of_pos_right (by decide)) rfl (u32_of_lt hend)
      (congrArg (· + 1) hnone) (by decide : 0 + 1 ≤ klogUserBurst) hnear fun t ht => ?_
    exact (hpast t ht).trans_le (Nat.le_add_right _ _)
  · have hper := hper.resolve_right hle
    rcases h.opened with ⟨-, h0⟩ | ⟨o, ho, hpe, hw, hcnt, hb, hp, hlt⟩
    · exact absurd (h0.le.trans (Nat.zero_le _)) hle
    by_cases hfull : klogUserBurst ≤ s.sys.log.userInWindow
    · simp only [userStep, call, klogUserRecord, if_neg hle, if_pos hfull]
      exact ⟨h.bounded, .inr ⟨o, ho.trans (Nat.le_add_right _ _), hpe.trans hper.symm, hw, hcnt, hb,
        hp, hlt⟩⟩
    · simp only [userStep, call, klogUserRecord, if_neg hle, if_neg hfull, if_true]
      refine h.push (ho.trans (Nat.le_add_right _ _)) ?_ (hpe.trans hper.symm) hw ?_ ?_ hp hlt
      · unfold u32 at hle
        omega
      · exact congrArg (· + 1) hcnt
      · exact not_le.1 hfull

/-- In a run none of whose calls has the counter wrap under its window. -/
theorem userRun_rateKept (tick : ℕ) (calls : List UserCall)
    (hok : StepsMeet userStep NoWrap ⟨bootKlog, tick, []⟩ calls) :
    (∀ a, (userRun tick calls).acceptedFrom a ≤ 2 * klogUserBurst) ∧
      ∀ c, NoWrap (userRun tick calls) c → klogUserWindow ≤ c.elapsed → c.elapsed < 2 ^ 31 →
        ((userRun tick calls).call c).1 = .ok := by
  have h : UserLogInv (userRun tick calls) :=
    foldl_induction userStep_inv calls ⟨fun a => Nat.zero_le _, .inl ⟨rfl, rfl⟩⟩ hok
  refine ⟨h.bounded, fun c hn hw _ => ?_⟩
  generalize userRun tick calls = s at *
  have hle : s.sys.log.userWindowEnd ≤ u32 (s.tick + c.elapsed) := by
    rcases hn.2 with hper | hle
    · rcases h.opened with ⟨-, h0⟩ | ⟨o, ho, hpe, hwe, -⟩
      · omega
      · unfold u32
        omega
    · exact hle
  simp [call, klogUserRecord, if_pos hle, klogUserBurst]

def userCall (elapsed : ℕ) : UserCall := ⟨elapsed, 1, [], 0⟩

theorem userRun_rateKept_sample :
    (∀ a, (userRun 7 [userCall 0, userCall 3]).acceptedFrom a ≤ 2 * klogUserBurst) ∧
      (userRun 7 [userCall 0, userCall 3]).accepted = [10, 7] :=
  ⟨(userRun_rateKept 7 [userCall 0, userCall 3]
    ⟨⟨by decide, .inl (by decide)⟩, ⟨by decide, .inl (by decide)⟩, trivial⟩).1, by decide⟩

/-- In the last tick before the counter wraps every call opens a window. -/
theorem userRun_wraps : 2 * klogUserBurst <
    (userRun (2 ^ 32 - 1) (replicate 65 (userCall 0))).acceptedFrom (2 ^ 32 - 1) := by
  decide +kernel

end Rate

end EsdumanOS
