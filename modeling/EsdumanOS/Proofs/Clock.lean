import EsdumanOS.Proofs.Calendar

/-!
# Setting the clock

Digits packed by `rtc_to_bcd` are unpacked again, and the hour is read as it was written unless the
chip counts to twelve and the hour is 0 or 12. What `sys_settime` accepts is decided by the year of
the stamp alone, since a stamp is always that of a valid time.
-/

namespace EsdumanOS

open EsdTime

lemma exists_fin_of_lt {n : ℕ} {v : UInt8} (h : v.toNat < n) : ∃ k : Fin n, v = .ofNat k :=
  ⟨⟨v.toNat, h⟩, by simp⟩

lemma rtcFromBcd_rtcToBcd {v : UInt8} (h : v.toNat < 100) : rtcFromBcd (rtcToBcd v) = v := by
  obtain ⟨k, rfl⟩ := exists_fin_of_lt h
  revert k
  decide +kernel

lemma rtcHour_back {regB hour : UInt8} (h : hour.toNat < 24) :
    rtcHourIn regB (rtcHourOut regB hour) = hour ↔ regB &&& 2 ≠ 0 ∨ hour ≠ 0 ∧ hour ≠ 12 := by
  obtain ⟨k, rfl⟩ := exists_fin_of_lt h
  unfold rtcHourIn rtcHourOut
  by_cases h2 : regB &&& 2 = 0 <;> by_cases h4 : regB &&& 4 = 0 <;>
    simp only [h2, h4, ne_eq, not_true_eq_false, not_false_eq_true, if_true, if_false, true_and,
      false_and, false_or, true_or] <;> clear h <;> revert k <;> decide +kernel

section Set

variable {cmos : Cmos} {t : EsdTime}

/-- `rtc_set_utc` takes the valid times of its century. -/
lemma rtcSetUtc_ok : (rtcSetUtc cmos t).1 = .ok ↔
    2000 ≤ t.year.toNat ∧ t.year.toNat ≤ 2099 ∧ t.Valid := by
  simp only [rtcSetUtc, Valid, CivilDate.Valid, date, UInt16.lt_iff_toNat_lt,
    UInt8.lt_iff_toNat_lt, UInt16.reduceToNat, UInt8.reduceToNat]
  split_ifs <;> simp <;> omega

lemma digits_back {p : Prop} [Decidable p] {v : UInt8} (h : v.toNat < 100) :
    (if p then rtcFromBcd (if p then rtcToBcd v else v) else if p then rtcToBcd v else v) = v := by
  split_ifs
  · exact rtcFromBcd_rtcToBcd h
  · rfl

lemma rtcReadUtc_rtcSetUtc (h : (rtcSetUtc cmos t).1 = .ok) : rtcReadUtc (rtcSetUtc cmos t).2 =
    { t with
      hour := rtcHourIn (cmos 0x0B) (rtcHourOut (cmos 0x0B) t.hour), tzOffsetHours := 0 } := by
  obtain ⟨hy, hy', ⟨hm, hm', hd, hd'⟩, hh, hmi, hs⟩ := rtcSetUtc_ok.1 h
  have h31 := (CivilDate.Valid.marchDay_le ⟨hm, hm', hd, hd'⟩).2.2.1
  have hye : (t.year - 2000).toUInt8.toNat = t.year.toNat - 2000 := by
    simp only [UInt16.toNat_toUInt8, UInt16.toNat_sub, UInt16.reduceToNat]
    omega
  simp only [date] at hm' h31
  unfold rtcSetUtc at h ⊢
  split_ifs at h ⊢
  simp only [rtcReadUtc, Function.update_apply, reduceIte, Nat.reduceEqDiff,
    OfNat.ofNat_ne_zero, OfNat.zero_ne_ofNat]
  rw [digits_back (by omega), digits_back (by omega), digits_back (by omega),
    digits_back (by omega),
    digits_back (by omega)]
  rw [mk.injEq]
  refine ⟨UInt16.toNat_inj.1 ?_, rfl, rfl, rfl, rfl, rfl, rfl⟩
  simp only [UInt16.toNat_add, UInt8.toNat_toUInt16, hye, UInt16.reduceToNat]
  omega

/-- The chip reads back what was written unless it counts to twelve and the hour is 0 or 12. -/
theorem rtcReadUtc_rtcSetUtc_iff (cmos : Cmos) (t : EsdTime) (hv : t.Valid)
    (hy : 2000 ≤ t.year.toNat)
    (hy' : t.year.toNat ≤ 2099) (htz : t.tzOffsetHours = 0) : (rtcSetUtc cmos t).1 = .ok ∧
    (rtcReadUtc (rtcSetUtc cmos t).2 = t ↔ cmos 0x0B &&& 2 ≠ 0 ∨ t.hour ≠ 0 ∧ t.hour ≠ 12) := by
  have hok : (rtcSetUtc cmos t).1 = .ok := rtcSetUtc_ok.2 ⟨hy, hy', hv⟩
  refine ⟨hok, ?_⟩
  rw [rtcReadUtc_rtcSetUtc hok, ← rtcHour_back hv.2.1, EsdTime.ext_iff]
  simp [htz]

theorem rtcReadUtc_rtcSetUtc_evening :
    rtcReadUtc (rtcSetUtc (fun _ => 0) ⟨2024, 2, 29, 23, 59, 58, 0⟩).2 =
    ⟨2024, 2, 29, 23, 59, 58, 0⟩ :=
  (rtcReadUtc_rtcSetUtc_iff _ _ (by decide) (by decide) (by decide) rfl).2.2 (by decide)

/-- In twelve-hour mode, midnight is read as noon. -/
theorem rtcReadUtc_midnight : (rtcSetUtc (fun _ => 0) ⟨2024, 2, 29, 0, 0, 0, 0⟩).1 = .ok ∧
    (rtcReadUtc (rtcSetUtc (fun _ => 0) ⟨2024, 2, 29, 0, 0, 0, 0⟩).2).hour = 12 := by
  decide +kernel

end Set

section Settime

variable {cmos : Cmos} {t : EsdTime}

lemma esdTimeToEpoch_lt (t : EsdTime) : esdTimeToEpoch t < 2 ^ 32 := by
  by_cases hy : 1970 ≤ t.year.toNat
  · rw [toEpoch_eq hy]
    split_ifs <;> omega
  · rw [esdTimeToEpoch, if_pos (by omega)]
    decide

lemma fromEpoch_century {e : ℕ} (he : e < 2 ^ 32) : (rtcSetUtc cmos (esdTimeFromEpoch e)).1 = .ok ↔
    946684800 ≤ e ∧ e < 4102444800 := by
  obtain ⟨hd, hvalid, -⟩ := fromEpoch_date he
  obtain ⟨c, hv, -, hda, hc⟩ := @CivilDate.exists_civil (e / 86400 : ℕ) (by omega) (by omega)
  have hy : ((esdTimeFromEpoch e).year.toNat : ℤ) = c.year := congrArg CivilDate.year (hd.trans hc)
  have h1 := hv.year_lt_iff (y := 2000)
  have h₂ := hv.year_lt_iff (y := 2100)
  simp only [rtcSetUtc_ok, hvalid, and_true]
  omega

/-- The stamps of the years 2000 to 2099 are accepted. -/
lemma sysSettime_ok : (sysSettime 0 (some t) cmos).2.1 = .ok ↔
    946684800 ≤ esdTimeToEpoch t ∧ esdTimeToEpoch t < 4102444800 := by
  rw [← @fromEpoch_century cmos _ (esdTimeToEpoch_lt t)]
  by_cases h0 : esdTimeToEpoch t = 0
  · simp [sysSettime, h0, fromEpoch_century]
  · simp [sysSettime, h0]

/-- Setting the clock sets the instant that was given exactly if the fields are a date and a time of
the 32-bit range, or what they add up to is refused. -/
theorem sysSettime_exact_iff (t : EsdTime) :
    (∀ cmos, (sysSettime 0 (some t) cmos).2.1 = .ok → t.Valid ∧
      ∃ utc, (sysSettime 0 (some t) cmos).1 = some utc ∧ utc.tzOffsetHours = 0 ∧
        utc.instant = t.instant) ↔
    t.year.toNat < 1970 ∨ t.seconds < 0 ∨ t.seconds % 2 ^ 32 < 946684800 ∨
      4102444800 ≤ t.seconds % 2 ^ 32 ∨ t.Valid ∧ t.seconds < 2 ^ 32 := by
  have hlt := esdTimeToEpoch_lt t
  have hutc : ∀ cmos, esdTimeToEpoch t ≠ 0 →
      (sysSettime 0 (some t) cmos).1 = some (esdTimeFromEpoch (esdTimeToEpoch t)) := by
    intro cmos h0
    simp [sysSettime, h0]
  have hin := fromEpoch_instant hlt
  simp only [sysSettime_ok]
  by_cases hy : t.year.toNat < 1970
  · simp [hy, esdTimeToEpoch]
  have he := toEpoch_eq (t := t) (by omega)
  by_cases hneg : t.seconds < 0
  · simp [hneg, he]
  rw [if_neg hneg] at he
  constructor
  · intro h
    by_contra hc
    push Not at hc
    obtain ⟨hv, utc, hu, -, heq⟩ := h (fun _ => 0) (by omega)
    rw [hutc _ (by omega), Option.some.injEq] at hu
    rw [← hu, hin, ← hv.seconds_eq (by omega)] at heq
    have := hc.2.2.2.2 hv
    omega
  · rintro h cmos hok
    obtain ⟨hv, hs⟩ : t.Valid ∧ t.seconds < 2 ^ 32 := by
      rcases h with h | h | h | h | h
      · omega
      · omega
      · omega
      · omega
      · exact h
    refine ⟨hv, _, hutc cmos (by omega), rfl, ?_⟩
    rw [hin, ← hv.seconds_eq (by omega)]
    omega

/-- The 30th of February is accepted. -/
theorem sysSettime_february : ¬ (⟨2024, 2, 30, 12, 0, 0, 0⟩ : EsdTime).Valid ∧
    (sysSettime 0 (some ⟨2024, 2, 30, 12, 0, 0, 0⟩) fun _ => 0).2.1 = .ok := by
  refine ⟨by decide, sysSettime_ok.2 ?_⟩
  rw [toEpoch_eq (by decide)]
  decide

end Settime

section Timezones

variable {c : CivilDate} {hour h : ℤ}

lemma rtcNextDay_eq (c : CivilDate) : rtcNextDay c = c.next := by
  unfold rtcNextDay CivilDate.next
  split_ifs <;> first | rfl | omega

lemma CivilDate.Valid.prev (h : c.Valid) :
    (rtcPrevDay c).Valid ∧ (rtcPrevDay c).marchDays + 1 = c.marchDays := by
  obtain ⟨hm, hm', hd, hd'⟩ := h
  obtain ⟨y, m, d⟩ := c
  have hlen : ∀ m y, 28 ≤ rtcDaysInMonth m y := by
    intro m y
    unfold rtcDaysInMonth
    split_ifs
    · decide
    · decide
    · have : ∀ k < 12, 28 ≤ [31, 28, 31, 30, 31, 30, 31, 31, 30, 31, 30, 31].getD k (0 : ℤ) := by
        decide
      exact this _ (by omega)
  have hv : (rtcPrevDay ⟨y, m, d⟩).Valid := by
    unfold rtcPrevDay
    dsimp only at *
    split_ifs
    · have := hlen 12 (y - 1)
      exact ⟨by simp, by simp, by dsimp only; omega, le_rfl⟩
    · have := hlen (m - 1) y
      exact ⟨by dsimp only; omega, by dsimp only; omega, by dsimp only; omega, le_rfl⟩
    · exact ⟨hm, hm', by dsimp only; omega, by dsimp only; omega⟩
  refine ⟨hv, ?_⟩
  rw [← hv.next.2]
  congr 1
  unfold rtcPrevDay CivilDate.next
  dsimp only at *
  split_ifs <;> ext <;> dsimp only at * <;> omega

lemma daysForward_spec (hour : ℤ) (c : CivilDate) (hv : c.Valid) :
    (daysForward hour c).2.Valid ∧ (daysForward hour c).1 < 24 ∧
      (daysForward hour c).1 + 24 * (daysForward hour c).2.marchDays =
        hour + 24 * c.marchDays := by
  fun_induction daysForward hour c with
  | case1 hour c hle ih =>
    obtain ⟨hv', hd⟩ := hv.next
    obtain ⟨h1, h2, h3⟩ := ih (by rwa [rtcNextDay_eq])
    refine ⟨h1, h2, ?_⟩
    rw [h3, rtcNextDay_eq]
    omega
  | case2 hour c hlt => exact ⟨hv, by omega, rfl⟩

lemma daysBack_spec (hour : ℤ) (c : CivilDate) (hv : c.Valid) (h24 : hour < 24) :
    (daysBack hour c).2.Valid ∧ 0 ≤ (daysBack hour c).1 ∧ (daysBack hour c).1 < 24 ∧
      (daysBack hour c).1 + 24 * (daysBack hour c).2.marchDays = hour + 24 * c.marchDays := by
  fun_induction daysBack hour c with
  | case1 hour c hlt ih =>
    obtain ⟨hv', hd⟩ := hv.prev
    obtain ⟨h1, h2, h3, h4⟩ := ih hv' (by omega)
    exact ⟨h1, h2, h3, by omega⟩
  | case2 hour c hle => exact ⟨hv, by omega, h24, rfl⟩

lemma toNat_ofInt8 {i : ℤ} (h0 : 0 ≤ i) (h : i < 256) : ((UInt8.ofInt i).toNat : ℤ) = i := by
  simp [UInt8.ofInt]
  omega

/-- The fields move by `h` hours, and the offset says so. -/
lemma rtcApplyTimezone_spec {t : EsdTime} (hv : t.Valid) (hy : 1970 ≤ t.year.toNat)
    (hy' : t.year.toNat ≤ 2106) (hl : -26 ≤ h) (hr : h ≤ 26)
    (htz : -12 ≤ t.tzOffsetHours.toInt + h) (htz' : t.tzOffsetHours.toInt + h ≤ 14) :
    (rtcApplyTimezone t h).Valid ∧
      (rtcApplyTimezone t h).hour.toNat + 24 * (rtcApplyTimezone t h).date.marchDays =
        t.hour.toNat + h + 24 * t.date.marchDays ∧
      (rtcApplyTimezone t h).tzOffsetHours.toInt = t.tzOffsetHours.toInt + h := by
  obtain ⟨hf, hf24, hfe⟩ := daysForward_spec (t.hour.toNat + h) t.date hv.1
  obtain ⟨hb, hb0, hb24, hbe⟩ := daysBack_spec _ _ hf hf24
  unfold rtcApplyTimezone
  generalize daysForward _ _ = r at hf hf24 hfe hb hb0 hb24 hbe ⊢
  dsimp only at *
  generalize daysBack r.1 r.2 = r at hb hb0 hb24 hbe ⊢
  obtain ⟨hour, c⟩ := r
  dsimp only at *
  have hday := hb.marchDay_le.2.2.1
  have hm := hb.1
  have hm' := hb.2.1
  have hd := hb.2.2.1
  have hyear : 0 ≤ c.year ∧ c.year < 2 ^ 16 := by
    have h1 := hb.year_lt_iff (y := 0)
    have h2 := hb.year_lt_iff (y := 2 ^ 16)
    have h3 := hv.1.year_lt_iff (y := 1970)
    have h4 := hv.1.year_lt_iff (y := 2107)
    have := hv.2.1
    simp only [date] at *
    omega
  have hdate : (⟨((UInt16.ofInt c.year).toNat : ℤ), ((UInt8.ofInt c.month).toNat : ℤ),
      ((UInt8.ofInt c.day).toNat : ℤ)⟩ : CivilDate) = c := by
    ext
    · simp [UInt16.ofInt]
      omega
    · exact toNat_ofInt8 (by omega) (by omega)
    · exact toNat_ofInt8 (by omega) (by omega)
  have hhour := toNat_ofInt8 hb0 (by omega)
  refine ⟨⟨?_, by dsimp only; omega, hv.2.2⟩, ?_, ?_⟩
  · rw [date, hdate]
    exact hb
  · rw [date, hdate, hhour]
    omega
  · exact Int8.toInt_ofInt_of_le (by omega) (by omega)

/-- A shift to another zone moves the hours and the offset and keeps the instant, and the shift back
gives the time again. -/
theorem rtcApplyTimezone_keeps (t : EsdTime) (hv : t.Valid) (hy : 1971 ≤ t.year.toNat)
    (hy' : t.year.toNat ≤ 2105) (h : ℤ)
    (hz : -12 ≤ t.tzOffsetHours.toInt ∧ t.tzOffsetHours.toInt ≤ 14)
    (hs : -12 ≤ t.tzOffsetHours.toInt + h ∧ t.tzOffsetHours.toInt + h ≤ 14) :
    (rtcApplyTimezone t h).Valid ∧ esdTimeToEpoch (rtcApplyTimezone t h) = esdTimeToEpoch t ∧
      (rtcApplyTimezone t h).tzOffsetHours.toInt = t.tzOffsetHours.toInt + h ∧
      (rtcApplyTimezone t h).hour.toNat + 24 * (rtcApplyTimezone t h).date.dayNumber =
        t.hour.toNat + h + 24 * t.date.dayNumber ∧
      rtcApplyTimezone (rtcApplyTimezone t h) (-h) = t := by
  obtain ⟨hv', hi, htz⟩ := rtcApplyTimezone_spec hv (by omega) (by omega) (by omega) (by omega)
    hs.1 hs.2
  have hfix : (rtcApplyTimezone t h).minute = t.minute ∧
      (rtcApplyTimezone t h).second = t.second := ⟨rfl, rfl⟩
  generalize rtcApplyTimezone t h = u at *
  have hyear : 1970 ≤ u.year.toNat ∧ u.year.toNat ≤ 2106 := by
    have h1 := hv'.1.year_lt_iff (y := 1970)
    have h2 := hv'.1.year_lt_iff (y := 2107)
    have h3 := hv.1.year_lt_iff (y := 1971)
    have h4 := hv.1.year_lt_iff (y := 2106)
    have := hv.2.1
    have := hv'.2.1
    simp only [date] at *
    omega
  have hu := hv'.1.dayNumber_eq (Int.ofNat_le.2 hyear.1)
  have ht := hv.1.dayNumber_eq (Int.ofNat_le.2 (le_of_lt hy))
  refine ⟨hv', ?_, htz, by omega, ?_⟩
  · have hse : u.seconds = t.seconds := by
      rw [hv'.seconds_eq hyear.1, hv.seconds_eq (by omega), instant, instant, hu, ht,
        secs, secs, hfix.1, hfix.2, htz]
      omega
    rw [toEpoch_eq hyear.1, toEpoch_eq (by omega), hse]
  · obtain ⟨hw, hwi, hwtz⟩ := rtcApplyTimezone_spec (h := -h) hv' hyear.1 hyear.2 (by omega)
      (by omega) (by omega) (by omega)
    have hwfix : (rtcApplyTimezone u (-h)).minute = t.minute ∧
        (rtcApplyTimezone u (-h)).second = t.second := hfix
    generalize rtcApplyTimezone u (-h) = w at *
    have hday : w.date.marchDays = t.date.marchDays := by
      have := hv.2.1
      have := hw.2.1
      omega
    have hdate : w.date = t.date := by
      have h1 := hw.1.year_lt_iff (y := 1971)
      have h2 := hv.1.year_lt_iff (y := 1971)
      have h3 := hv.1.year_lt_iff (y := 2106)
      have hyt : 1971 ≤ t.date.year ∧ t.date.year < 2106 := by
        simp only [date]
        omega
      rw [← hw.1.civilFromDays (by unfold CivilDate.marchYear; split_ifs <;> omega) (by omega),
        hday,
        hv.1.civilFromDays (by unfold CivilDate.marchYear; split_ifs <;> omega) (by omega)]
    refine hw.eq_of hv hdate ?_ ?_
    · rw [secs, secs, hwfix.1, hwfix.2]
      omega
    · rw [← Int8.ofInt_toInt w.tzOffsetHours, hwtz, htz, add_neg_cancel_right, Int8.ofInt_toInt]

/-- Three hours on from half past ten in the evening of a leap day are 25 hours from its start. -/
theorem rtcApplyTimezone_keeps_leapDay :
    let t : EsdTime := ⟨2024, 2, 29, 22, 30, 0, 0⟩
    (rtcApplyTimezone t 3).tzOffsetHours.toInt = 3 ∧
      (rtcApplyTimezone t 3).hour.toNat + 24 * (rtcApplyTimezone t 3).date.dayNumber =
        25 + 24 * t.date.dayNumber ∧ rtcApplyTimezone (rtcApplyTimezone t 3) (-3) = t := by
  intro t
  obtain ⟨_, _, htz, hmoved, hback⟩ :=
    rtcApplyTimezone_keeps t (by decide) (by decide) (by decide) 3
    (by decide) (by decide)
  exact ⟨htz, hmoved, hback⟩

end Timezones

end EsdumanOS
