import EsdumanOS.Calendar

/-!
# The conversions are the Gregorian calendar

The day count of a valid date, from 0000-03-01 on, has a closed form in the year that starts in
March (`marchDays`). It grows by one from a date to the next, and `esd_civil_from_days` takes it
apart.
-/

namespace EsdumanOS

namespace CivilDate

/-- The year that starts in March. -/
def marchYear (c : CivilDate) : ℤ := c.year - if c.month ≤ 2 then 1 else 0

/-- The day in the year that starts in March. -/
def marchDay (c : CivilDate) : ℤ :=
  (153 * (c.month + if 2 < c.month then -3 else 9) + 2) / 5 + c.day - 1

/-- The days since 0000-03-01. -/
def marchDays (c : CivilDate) : ℤ :=
  365 * c.marchYear + c.marchYear / 4 - c.marchYear / 100 + c.marchYear / 400 + c.marchDay

variable {c : CivilDate}

lemma daysFromCivil_eq (hy : 0 ≤ c.marchYear) (hm : 0 ≤ c.month) (h : c.marchDays < 2 ^ 31)
    (hd : 0 ≤ c.marchDay) : esdDaysFromCivil c.year c.month c.day = c.marchDays - 719468 := by
  have hdo : (153 * (c.month + if 2 < c.month then -3 else 9) + 2).tdiv 5 + c.day - 1 =
      c.marchDay := by
    rw [Int.tdiv_eq_ediv_of_nonneg (by split_ifs <;> omega), marchDay]
  unfold esdDaysFromCivil
  dsimp only
  rw [hdo, ← marchYear, if_pos hy, Int.tdiv_eq_ediv_of_nonneg hy,
    Int.tdiv_eq_ediv_of_nonneg (by omega), Int.tdiv_eq_ediv_of_nonneg (by omega)]
  unfold marchDays at h ⊢
  rw [i32_of_lt (by omega) (by omega)]
  omega

/-- The day in the year and the length of the month, month by month. -/
lemma Valid.marchDay_le (h : c.Valid) : 0 ≤ c.marchDay ∧ c.marchDay ≤ 365 ∧
    c.day ≤ 31 ∧ (c.month ≤ 2 ↔ 306 ≤ c.marchDay) ∧ (c.marchDay = 365 → c.marchYear % 4 = 3 ∧
      (c.marchYear % 100 = 99 → c.marchYear % 400 = 399)) := by
  obtain ⟨hm, hm', hd, hd'⟩ := h
  unfold marchDay marchYear
  obtain ⟨y, m, d⟩ := c
  dsimp only at *
  interval_cases m <;> simp [rtcDaysInMonth, rtcIsLeap] at hd' ⊢ <;> (try split at hd') <;> omega

lemma Valid.next (h : c.Valid) : c.next.Valid ∧ c.next.marchDays = c.marchDays + 1 := by
  obtain ⟨hm, hm', hd, hd'⟩ := h
  obtain ⟨y, m, d⟩ := c
  unfold CivilDate.next
  dsimp only at *
  rcases lt_or_eq_of_le hd' with hlt | rfl
  · rw [if_pos hlt]
    exact ⟨⟨hm, hm', by dsimp only; omega, hlt⟩,
      by simp only [marchDays, marchDay, marchYear]; omega⟩
  · rw [if_neg (lt_irrefl _)]
    unfold Valid marchDays marchDay marchYear
    interval_cases m <;> simp [rtcDaysInMonth] <;> (try split) <;>
      simp_all [rtcIsLeap] <;> omega

lemma marchYear_grows {a b : ℤ} (h : a < b) :
    365 * a + a / 4 - a / 100 + a / 400 + 365 ≤ 365 * b + b / 4 - b / 100 + b / 400 := by
  obtain ⟨p, q, hp⟩ : ∃ p q : ℤ, a = 100 * p + q ∧ 0 ≤ q ∧ q < 100 :=
    ⟨a / 100, a % 100, by omega, by omega, by omega⟩
  obtain ⟨r, s, hr⟩ : ∃ r s : ℤ, b = 100 * r + s ∧ 0 ≤ s ∧ s < 100 :=
    ⟨b / 100, b % 100, by omega, by omega, by omega⟩
  have hle : 24 * p + q / 4 ≤ 24 * r + s / 4 := by omega
  omega

/-- The days of a year are those before its successor's first. -/
lemma Valid.year_lt_iff (h : c.Valid) {y : ℤ} : c.year < y ↔
    c.marchDays < 365 * (y - 1) + (y - 1) / 4 - (y - 1) / 100 + (y - 1) / 400 + 306 := by
  obtain ⟨h0, h365, -, hl, -⟩ := h.marchDay_le
  have hy : c.marchYear = c.year - if c.month ≤ 2 then 1 else 0 := rfl
  unfold marchDays
  rcases lt_trichotomy c.marchYear (y - 1) with hlt | heq | hgt
  · have := marchYear_grows hlt
    split_ifs at hy <;> omega
  · rw [heq]
    split_ifs at hy <;> omega
  · have := marchYear_grows hgt
    split_ifs at hy <;> omega

lemma exists_date (n : ℕ) : ∃ c : CivilDate, c.Valid ∧ 0 ≤ c.marchYear ∧ c.marchDays = n := by
  induction n with
  | zero => exact ⟨⟨0, 3, 1⟩, by simp [Valid, rtcDaysInMonth], by simp [marchYear],
      by simp [marchDays, marchDay, marchYear]⟩
  | succ n ih =>
    obtain ⟨c, hc, hy, hn⟩ := ih
    obtain ⟨hv, hd⟩ := hc.next
    refine ⟨c.next, hv, ?_, by rw [hd, hn]; push_cast; rfl⟩
    have := hv.marchDay_le
    rw [marchDays] at hd
    omega

lemma yearOf_eq {yoe doy doe : ℤ} (hy : 0 ≤ yoe) (hy' : yoe ≤ 399) (hd : 0 ≤ doy) (hd' : doy ≤ 365)
    (hl : doy = 365 → yoe % 4 = 3 ∧ (yoe % 100 = 99 → yoe = 399))
    (h : doe = 365 * yoe + yoe / 4 - yoe / 100 + doy) :
    (doe - doe / 1460 + doe / 36524 - doe / 146096) / 365 = yoe := by
  obtain ⟨a, q, r, rfl, ha, ha', hq, hq', hr, hr'⟩ : ∃ a q r : ℤ, yoe = 100 * a + 4 * q + r ∧
      0 ≤ a ∧ a ≤ 3 ∧ 0 ≤ q ∧ q ≤ 24 ∧ 0 ≤ r ∧ r ≤ 3 :=
    ⟨yoe / 100, yoe % 100 / 4, yoe % 4, by omega, by omega, by omega, by omega, by omega,
      by omega, by omega⟩
  have hdo : doe = 36524 * a + 1461 * q + 365 * r + doy := by omega
  have h4 : doe / 1460 = 25 * a + q ∨ doe / 1460 = 25 * a + q + 1 ∧ 1364 ≤ 365 * r + doy := by
    omega
  have h100 : doe = 146096 ∨ doe / 36524 = a ∧ doe < 146096 := by
    rcases Int.le_iff_lt_or_eq.1 ha' with h3 | h3
    · right
      omega
    · omega
  omega

lemma Valid.monthOf_eq (h : c.Valid) :
    (5 * c.marchDay + 2) / 153 = c.month + if 2 < c.month then -3 else 9 := by
  obtain ⟨hm, hm', hd, hd'⟩ := h
  unfold marchDay
  obtain ⟨y, m, d⟩ := c
  dsimp only at *
  interval_cases m <;> simp [rtcDaysInMonth] at hd' ⊢ <;> (try split at hd') <;> omega

/-- `esd_civil_from_days` finds the date with a day count. -/
lemma Valid.civilFromDays (h : c.Valid) (hy : 0 ≤ c.marchYear) (hb : c.marchDays < 2 ^ 31) :
    esdCivilFromDays (c.marchDays - 719468) = c := by
  obtain ⟨h0, h365, -, -, hl⟩ := h.marchDay_le
  obtain ⟨era, yoe, he, hyo, hy'⟩ : ∃ era yoe : ℤ, c.marchYear = 400 * era + yoe ∧ 0 ≤ yoe ∧
      yoe ≤ 399 := ⟨c.marchYear / 400, c.marchYear % 400, by omega, by omega, by omega⟩
  have hsum : c.marchDays = 146097 * era + (365 * yoe + yoe / 4 - yoe / 100 + c.marchDay) := by
    unfold marchDays
    omega
  generalize hdo : 365 * yoe + yoe / 4 - yoe / 100 + c.marchDay = doe at hsum
  have hp : 0 ≤ doe ∧ doe ≤ 146096 := by omega
  have hz : 0 ≤ c.marchDays ∧ c.marchDays / 146097 = era ∧ c.marchDays - era * 146097 = doe := by
    omega
  have hn : 0 ≤ doe - doe / 1460 + doe / 36524 - doe / 146096 := by omega
  have hda : doe - (365 * yoe + yoe / 4 - yoe / 100) = c.marchDay := by omega
  unfold esdCivilFromDays
  rw [sub_add_cancel, i32_of_lt (by omega) hb]
  dsimp only
  rw [if_pos hz.1, Int.tdiv_eq_ediv_of_nonneg hz.1, hz.2.1, hz.2.2,
    Int.tdiv_eq_ediv_of_nonneg hp.1, Int.tdiv_eq_ediv_of_nonneg hp.1,
    Int.tdiv_eq_ediv_of_nonneg hp.1, Int.tdiv_eq_ediv_of_nonneg hn,
    yearOf_eq hyo hy' h0 h365 (fun hd => by have := hl hd; omega) hdo.symm,
    Int.tdiv_eq_ediv_of_nonneg hyo, Int.tdiv_eq_ediv_of_nonneg hyo, hda,
    Int.tdiv_eq_ediv_of_nonneg (by omega), h.monthOf_eq,
    Int.tdiv_eq_ediv_of_nonneg (by have := h.1; split_ifs <;> omega)]
  obtain ⟨hm, hm', -, -⟩ := h
  clear hsum hdo hp hz hn hda hl
  unfold marchYear at he
  unfold marchDay
  obtain ⟨y, m, d⟩ := c
  dsimp only at *
  simp only [CivilDate.mk.injEq]
  split_ifs <;> split_ifs at he <;> omega

/-- The days from `-719468` on, as long as an `int` holds them, are days of the calendar. -/
lemma exists_civil {days : ℤ} (h : -719468 ≤ days) (h' : days ≤ 2 ^ 31 - 719469) :
    ∃ c : CivilDate, c.Valid ∧ 0 ≤ c.marchYear ∧ c.marchDays = days + 719468 ∧
      esdCivilFromDays days = c := by
  obtain ⟨c, hv, hy, hc⟩ := exists_date (days + 719468).toNat
  have hd : c.marchDays = days + 719468 := by omega
  refine ⟨c, hv, hy, hd, ?_⟩
  rw [← hv.civilFromDays hy (by omega), hd, add_sub_cancel_right]

lemma daysBeforeYear_eq (n : ℕ) :
    daysBeforeYear n = 365 * n + ((n + 1 : ℤ) / 4 - (n + 69 : ℤ) / 100 + (n + 369 : ℤ) / 400) := by
  induction n with
  | zero => rfl
  | succ n ih =>
    rw [daysBeforeYear, ih]
    push_cast
    split <;> simp_all [rtcIsLeap] <;> omega

lemma Valid.dayNumber_eq (h : c.Valid) (hy : 1970 ≤ c.year) :
    c.dayNumber = c.marchDays - 719468 := by
  obtain ⟨hm, hm', -, -⟩ := h
  unfold dayNumber marchDays marchDay marchYear
  rw [daysBeforeYear_eq]
  obtain ⟨y, m, d⟩ := c
  dsimp only at *
  interval_cases m <;> simp [daysBeforeMonth, rtcDaysInMonth] <;> (try split) <;>
    simp_all [rtcIsLeap] <;> omega

end CivilDate

open CivilDate

/-- From 0000-03-01 on, `esd_civil_from_days` counts off the Gregorian calendar day by day. -/
theorem civil_gregorian (days : ℤ) (h : -719468 ≤ days) (h' : days ≤ 2 ^ 31 - 719469) :
    (esdCivilFromDays days).Valid ∧
      esdDaysFromCivil (esdCivilFromDays days).year (esdCivilFromDays days).month
        (esdCivilFromDays days).day = days ∧
      (days < 2 ^ 31 - 719469 → esdCivilFromDays (days + 1) = (esdCivilFromDays days).next) ∧
      esdCivilFromDays 0 = ⟨1970, 1, 1⟩ := by
  obtain ⟨c, hv, hy, hdays, hc⟩ := exists_civil h h'
  rw [hc]
  have hd := hv.marchDay_le
  refine ⟨hv, ?_, fun hlt => ?_, by decide⟩
  · rw [daysFromCivil_eq hy (by have := hv.1; omega) (by omega) hd.1]
    omega
  · obtain ⟨hv', hn⟩ := hv.next
    have hd' := hv'.marchDay_le
    rw [← hv'.civilFromDays (by unfold marchDays at hn; omega) (by omega), hn, hdays]
    congr 1
    omega

theorem civil_gregorian_leapDay : esdCivilFromDays 19782 = ⟨2024, 2, 29⟩ ∧
    esdCivilFromDays (19782 + 1) = ⟨2024, 3, 1⟩ := by
  have h := civil_gregorian 19782 (by decide) (by decide)
  have hday : esdCivilFromDays 19782 = ⟨2024, 2, 29⟩ := by decide
  refine ⟨hday, ?_⟩
  rw [h.2.2.1 (by decide), hday]
  decide

/-! ## Seconds -/

lemma borrowDays_eq (secs days : ℤ) : borrowDays secs days =
    if secs < 0 then (secs % 86400, days + secs / 86400) else (secs, days) := by
  fun_induction borrowDays secs days with
  | case1 secs days h ih =>
    rw [ih, if_pos h]
    split_ifs <;> simp <;> omega
  | case2 secs days h => rw [if_neg h]

lemma carryDays_eq (secs days : ℤ) (h : 0 ≤ secs) :
    carryDays secs days = (secs % 86400, days + secs / 86400) := by
  fun_induction carryDays secs days with
  | case1 secs days hle ih =>
    rw [ih (by omega)]
    simp
    omega
  | case2 secs days hle => simp; omega

namespace EsdTime

variable {t : EsdTime}

lemma toEpoch_eq (hy : 1970 ≤ t.year.toNat) :
    esdTimeToEpoch t = if t.seconds < 0 then 0 else t.seconds.toNat % 2 ^ 32 := by
  have hl : ∀ days, carryDays (borrowDays t.secs days).1 (borrowDays t.secs days).2 =
      (t.secs % 86400, days + t.secs / 86400) := by
    intro days
    rw [borrowDays_eq]
    split_ifs with h
    · rw [carryDays_eq _ _ (by dsimp only; omega)]
      simp only [Int.emod_emod]
      congr 1
      omega
    · exact carryDays_eq _ _ (by dsimp only; omega)
  unfold esdTimeToEpoch seconds
  rw [if_neg (by omega)]
  simp only [hl, u32]
  split_ifs <;> omega

lemma Valid.seconds_eq (h : t.Valid) (hy : 1970 ≤ t.year.toNat) : t.seconds = t.instant := by
  have hd := h.1.marchDay_le
  have hlt := t.year.toNat_lt
  have hm : 0 ≤ t.date.marchYear ∧ t.date.marchYear < 2 ^ 16 := by
    unfold marchYear date
    dsimp only
    split_ifs <;> omega
  have hda := daysFromCivil_eq hm.1 (by have := h.1.1; omega) (by unfold marchDays; omega) hd.1
  rw [instant, h.1.dayNumber_eq (Int.ofNat_le.2 hy), ← hda]
  rfl

lemma fromEpoch_date {e : ℕ} (he : e < 2 ^ 32) :
    (esdTimeFromEpoch e).date = esdCivilFromDays (e / 86400 : ℕ) ∧ (esdTimeFromEpoch e).Valid ∧
      1970 ≤ (esdTimeFromEpoch e).year.toNat ∧ (esdTimeFromEpoch e).secs = e % 86400 := by
  obtain ⟨c, hv, hy, hdy, hc⟩ := @exists_civil (e / 86400 : ℕ) (by omega) (by omega)
  have h31 := hv.marchDay_le.2.2.1
  have hye : 1970 ≤ c.year ∧ c.year < 2 ^ 16 := by
    have h₁ := hv.year_lt_iff (y := 1970)
    have h₂ := hv.year_lt_iff (y := 2 ^ 16)
    omega
  have hm := hv.1
  have hm' := hv.2.1
  have hd := hv.2.2.1
  have hda : (esdTimeFromEpoch e).date = c := by
    simp only [esdTimeFromEpoch, hc, date, UInt16.toNat_ofNat', UInt8.toNat_ofNat']
    ext <;> dsimp only <;> omega
  have hh : (esdTimeFromEpoch e).hour.toNat = e % 86400 / 3600 := by
    rw [esdTimeFromEpoch, UInt8.toNat_ofNat', Nat.mod_eq_of_lt (by omega)]
  have hmi : (esdTimeFromEpoch e).minute.toNat = e % 86400 % 3600 / 60 := by
    rw [esdTimeFromEpoch, UInt8.toNat_ofNat', Nat.mod_eq_of_lt (by omega)]
  have hs : (esdTimeFromEpoch e).second.toNat = e % 86400 % 60 := by
    rw [esdTimeFromEpoch, UInt8.toNat_ofNat', Nat.mod_eq_of_lt (by omega)]
  have hy' : ((esdTimeFromEpoch e).year.toNat : ℤ) = c.year := congrArg CivilDate.year hda
  refine ⟨by rw [hda, hc], ⟨by rw [hda]; exact hv, by omega, by omega, by omega⟩, by omega, ?_⟩
  rw [secs, hh, hmi, hs, show (esdTimeFromEpoch e).tzOffsetHours = 0 from rfl, Int8.toInt_zero]
  omega

lemma fromEpoch_instant {e : ℕ} (he : e < 2 ^ 32) : (esdTimeFromEpoch e).instant = e := by
  obtain ⟨c, hv, hy, hd, hc⟩ := @exists_civil (e / 86400 : ℕ) (by omega) (by omega)
  obtain ⟨hda, hvalid, hye, hs⟩ := fromEpoch_date he
  rw [instant, hvalid.1.dayNumber_eq (Int.ofNat_le.2 hye), hda, hc, hd, hs]
  omega

lemma Stampable.toEpoch_eq (h : t.Stampable) : (esdTimeToEpoch t : ℤ) = t.instant := by
  obtain ⟨hv, hy, -, -, h0, hlt⟩ := h
  rw [EsdTime.toEpoch_eq hy, hv.seconds_eq hy, if_neg (by omega)]
  omega

lemma Valid.eq_of {u : EsdTime} (ht : t.Valid) (hu : u.Valid) (hd : t.date = u.date)
    (hs : t.secs = u.secs) (htz : t.tzOffsetHours = u.tzOffsetHours) : t = u := by
  obtain ⟨-, ht, ht', ht''⟩ := ht
  obtain ⟨-, hu, hu', hu''⟩ := hu
  simp only [date, CivilDate.mk.injEq, Nat.cast_inj] at hd
  simp only [secs, htz] at hs
  ext1
  · exact UInt16.toNat_inj.1 hd.1
  · exact UInt8.toNat_inj.1 hd.2.1
  · exact UInt8.toNat_inj.1 hd.2.2
  · exact UInt8.toNat_inj.1 (by omega)
  · exact UInt8.toNat_inj.1 (by omega)
  · exact UInt8.toNat_inj.1 (by omega)
  · exact htz

lemma Stampable.fromEpoch_eq {e : ℕ} (h : t.Stampable) (h0 : t.tzOffsetHours = 0)
    (he : esdTimeToEpoch t = e) : t = esdTimeFromEpoch e := by
  have hi := h.toEpoch_eq
  obtain ⟨hv, hy, -, -, hp, hlt⟩ := h
  obtain ⟨hd, hvalid, -, hse⟩ := fromEpoch_date (e := e) (by omega)
  have hda := hv.1.dayNumber_eq (Int.ofNat_le.2 hy)
  have hma := hv.1.marchDay_le
  have hr : 0 ≤ t.secs ∧ t.secs < 86400 := by
    obtain ⟨-, hh, hm, hs⟩ := hv
    rw [secs, h0, Int8.toInt_zero]
    omega
  have hc : t.date.marchDays - 719468 = (e / 86400 : ℕ) := by
    rw [instant] at hi
    omega
  have hmy : 0 ≤ t.date.marchYear := by
    unfold marchYear date
    dsimp only
    split_ifs <;> omega
  refine hv.eq_of hvalid ?_ ?_ h0
  · rw [hd, ← hc, hv.1.civilFromDays hmy (by omega)]
  · rw [instant] at hi
    omega

end EsdTime

open EsdTime

/-- Time stamps order as the instants do, and every stamp is that of one time with offset 0. -/
theorem timeToEpoch_orders :
    (∀ a b : EsdTime, a.Stampable → b.Stampable →
      (esdTimeToEpoch a < esdTimeToEpoch b ↔ a.instant < b.instant)) ∧
    ∀ e < 2 ^ 32, ((esdTimeFromEpoch e).Stampable ∧ (esdTimeFromEpoch e).tzOffsetHours = 0 ∧
      esdTimeToEpoch (esdTimeFromEpoch e) = e) ∧
      ∀ t : EsdTime, t.Stampable → t.tzOffsetHours = 0 → esdTimeToEpoch t = e →
        t = esdTimeFromEpoch e := by
  refine ⟨fun a b ha hb => ?_, fun e he => ?_⟩
  · have h₁ := ha.toEpoch_eq
    have h₂ := hb.toEpoch_eq
    omega
  · have hin := fromEpoch_instant he
    obtain ⟨hdate, hvalid, hyear, hsecs⟩ := fromEpoch_date he
    have htz : (esdTimeFromEpoch e).tzOffsetHours.toInt = 0 := Int8.toInt_zero
    have hst : (esdTimeFromEpoch e).Stampable :=
      ⟨hvalid, hyear, by omega, by omega, by omega, by omega⟩
    have hback := hst.toEpoch_eq
    exact ⟨⟨hst, rfl, by omega⟩, fun t ht h0 hte => ht.fromEpoch_eq h0 hte⟩

/-- Noon on a leap day five hours behind UTC is before midnight two hours ahead of it. -/
theorem timeToEpoch_orders_leapDay :
    esdTimeToEpoch ⟨2024, 2, 29, 12, 0, 0, -5⟩ < esdTimeToEpoch ⟨2024, 3, 1, 0, 0, 0, 2⟩ :=
  (timeToEpoch_orders.1 _ _ (by decide +kernel) (by decide +kernel)).2 (by decide +kernel)

/-- The second after the last stamp has the stamp of the first one. -/
theorem timeToEpoch_wraps :
    let t : EsdTime := ⟨2106, 2, 7, 6, 28, 16, 0⟩
    t.Valid ∧ 1970 ≤ t.year.toNat ∧ t.tzOffsetHours = 0 ∧ esdTimeToEpoch t = 0 ∧
      esdTimeFromEpoch 0 = ⟨1970, 1, 1, 0, 0, 0, 0⟩ ∧ t ≠ esdTimeFromEpoch 0 := by
  decide +kernel

end EsdumanOS
