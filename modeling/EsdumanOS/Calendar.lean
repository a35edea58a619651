import EsdumanOS.Base

/-!
# The calendar and the clock

The conversions of `esdtime.h`, the chip of `rtc.c` and `sys_settime`. Between two ticks the chip is
its registers; so the waits for the end of an update are left out, and two readings agree.
-/

namespace EsdumanOS

open Function

@[ext] structure CivilDate where
  (year month day : ℤ)
  deriving DecidableEq

@[ext] structure EsdTime where
  year : UInt16
  (month day hour minute second : UInt8)
  tzOffsetHours : Int8
  deriving DecidableEq

def rtcIsLeap (year : ℤ) : Bool :=
  (year % 4 = 0 && year % 100 ≠ 0) || year % 400 = 0

def rtcDaysInMonth (month year : ℤ) : ℤ :=
  if month < 1 ∨ 12 < month then 31
  else if month = 2 ∧ rtcIsLeap year then 29
  else [31, 28, 31, 30, 31, 30, 31, 31, 30, 31, 30, 31].getD (month - 1).toNat 0

def esdDaysFromCivil (y m d : ℤ) : ℤ :=
  let y := y - if m ≤ 2 then 1 else 0
  let era := (if 0 ≤ y then y else y - 399).tdiv 400
  let yoe := y - era * 400
  let doy := (153 * (m + if 2 < m then -3 else 9) + 2).tdiv 5 + d - 1
  let doe := yoe * 365 + yoe.tdiv 4 - yoe.tdiv 100 + doy
  i32 (era * 146097 + doe - 719468)

def esdCivilFromDays (days : ℤ) : CivilDate :=
  let z := i32 (days + 719468)
  let era := (if 0 ≤ z then z else z - 146096).tdiv 146097
  let doe := z - era * 146097
  let yoe := (doe - doe.tdiv 1460 + doe.tdiv 36524 - doe.tdiv 146096).tdiv 365
  let doy := doe - (365 * yoe + yoe.tdiv 4 - yoe.tdiv 100)
  let mp := (5 * doy + 2).tdiv 153
  let m := mp + if mp < 10 then 3 else -9
  ⟨yoe + era * 400 + if m ≤ 2 then 1 else 0, m, doy - (153 * mp + 2).tdiv 5 + 1⟩

/-- The first loop of `esd_time_to_epoch`, over `secs` and `days`. -/
def borrowDays (secs days : ℤ) : ℤ × ℤ :=
  if secs < 0 then borrowDays (secs + 86400) (days - 1) else (secs, days)
termination_by (-secs).toNat

/-- The second loop. -/
def carryDays (secs days : ℤ) : ℤ × ℤ :=
  if 86400 ≤ secs then carryDays (secs - 86400) (days + 1) else (secs, days)
termination_by secs.toNat

/-- The time of day of the fields in seconds, with the offset taken back out. -/
def EsdTime.secs (t : EsdTime) : ℤ :=
  t.hour.toNat * 3600 + t.minute.toNat * 60 + t.second.toNat - t.tzOffsetHours.toInt * 3600

/-- What the fields of a time add up to, in seconds, whether or not they are a date. -/
def EsdTime.seconds (t : EsdTime) : ℤ :=
  esdDaysFromCivil t.year.toNat t.month.toNat t.day.toNat * 86400 + t.secs

def esdTimeToEpoch (t : EsdTime) : ℕ :=
  if t.year.toNat < 1970 then 0
  else
    let days := esdDaysFromCivil t.year.toNat t.month.toNat t.day.toNat
    let (secs, days) := borrowDays t.secs days
    let (secs, days) := carryDays secs days
    if days < 0 then 0 else u32 (u32 (days.toNat * 86400) + secs.toNat)

def esdTimeFromEpoch (epoch : ℕ) : EsdTime :=
  let c := esdCivilFromDays (epoch / 86400 : ℕ)
  let rem := epoch % 86400
  ⟨.ofNat c.year.toNat, .ofNat c.month.toNat, .ofNat c.day.toNat, .ofNat (rem / 3600),
    .ofNat (rem % 3600 / 60), .ofNat (rem % 60), 0⟩

/-- The registers of the chip. -/
abbrev Cmos := ℕ → UInt8

def rtcToBcd (v : UInt8) : UInt8 := (v / 10) <<< 4 ||| v % 10

/-- The digits of a register, as `rtc_read_utc` puts them together. -/
def rtcFromBcd (v : UInt8) : UInt8 := (v &&& 0x0F) + v / 16 * 10

/-- The hour as `rtc_set_utc` stores it under register B. -/
def rtcHourOut (regB hour : UInt8) : UInt8 :=
  let h12 := if hour % 12 = 0 then 12 else hour % 12
  let hour := if regB &&& 2 = 0 then h12 ||| (if 12 ≤ hour then 0x80 else 0) else hour
  if regB &&& 4 = 0 then rtcToBcd (hour &&& 0x7F) ||| (hour &&& 0x80) else hour

/-- The hour as `rtc_read_utc` reads it under register B. -/
def rtcHourIn (regB hour : UInt8) : UInt8 :=
  let hour := if regB &&& 4 = 0 then
    ((hour &&& 0x0F) + (hour &&& 0x70) / 16 * 10) ||| (hour &&& 0x80) else hour
  if regB &&& 2 = 0 ∧ hour &&& 0x80 ≠ 0 then ((hour &&& 0x7F) + 12) % 24 else hour

def rtcSetUtc (cmos : Cmos) (t : EsdTime) : Errno × Cmos :=
  if t.year < 2000 ∨ 2099 < t.year then (.inval, cmos)
  else if t.month < 1 ∨ 12 < t.month then (.inval, cmos)
  else if t.day < 1 ∨ rtcDaysInMonth t.month.toNat t.year.toNat < t.day.toNat then (.inval, cmos)
  else if 23 < t.hour ∨ 59 < t.minute ∨ 59 < t.second then (.inval, cmos)
  else
    let regB := cmos 0x0B
    let out v := if regB &&& 4 = 0 then rtcToBcd v else v
    let cmos := update cmos 0x0B (regB ||| 0x80)
    let cmos := update cmos 0 (out t.second)
    let cmos := update cmos 2 (out t.minute)
    let cmos := update cmos 4 (rtcHourOut regB t.hour)
    let cmos := update cmos 7 (out t.day)
    let cmos := update cmos 8 (out t.month)
    let cmos := update cmos 9 (out (t.year - 2000).toUInt8)
    (.ok, update cmos 0x0B regB)

def rtcReadUtc (cmos : Cmos) : EsdTime :=
  let regB := cmos 0x0B
  let v reg := if regB &&& 4 = 0 then rtcFromBcd (cmos reg) else cmos reg
  ⟨(v 9).toUInt16 + 2000, v 8, v 7, rtcHourIn regB (cmos 4), v 2, v 0, 0⟩

/-- `sys_settime`, with the time it hands to `rtc_set_utc`. `given` is what `copy_from_user`
gets. -/
def sysSettime (uid : ℕ) (given : Option EsdTime) (cmos : Cmos) : Option EsdTime × Errno × Cmos :=
  if uid ≠ 0 then (none, .perm, cmos)
  else match given with
  | none => (none, .fault, cmos)
  | some given =>
    let epoch := esdTimeToEpoch given
    if epoch = 0 then (none, .inval, cmos)
    else
      let utc := esdTimeFromEpoch epoch
      (some utc, rtcSetUtc cmos utc)

/-! ## The Gregorian calendar -/

def CivilDate.Valid (c : CivilDate) : Prop :=
  1 ≤ c.month ∧ c.month ≤ 12 ∧ 1 ≤ c.day ∧ c.day ≤ rtcDaysInMonth c.month c.year

instance (c : CivilDate) : Decidable c.Valid := inferInstanceAs (Decidable (_ ∧ _))

def CivilDate.next (c : CivilDate) : CivilDate :=
  if c.day < rtcDaysInMonth c.month c.year then { c with day := c.day + 1 }
  else if c.month < 12 then ⟨c.year, c.month + 1, 1⟩ else ⟨c.year + 1, 1, 1⟩

def daysBeforeYear : ℕ → ℤ
  | 0 => 0
  | n + 1 => daysBeforeYear n + if rtcIsLeap (1970 + n) then 366 else 365

def daysBeforeMonth (year : ℤ) : ℕ → ℤ
  | 0 => 0
  | m + 1 => daysBeforeMonth year m + rtcDaysInMonth (m + 1) year

/-- The days from 1970-01-01 on, year by year and month by month. -/
def CivilDate.dayNumber (c : CivilDate) : ℤ :=
  daysBeforeYear (c.year - 1970).toNat + daysBeforeMonth c.year (c.month - 1).toNat + c.day - 1

namespace EsdTime

variable (t : EsdTime)

def date : CivilDate := ⟨t.year.toNat, t.month.toNat, t.day.toNat⟩

def Valid : Prop :=
  t.date.Valid ∧ t.hour.toNat < 24 ∧ t.minute.toNat < 60 ∧ t.second.toNat < 60

/-- The UTC instant in seconds from 1970-01-01 on. -/
def instant : ℤ := t.date.dayNumber * 86400 + t.secs

/-- A time of a zone whose instant is between 1970-01-01 00:00:00 and 2106-02-07 06:28:15. -/
def Stampable : Prop :=
  t.Valid ∧ 1970 ≤ t.year.toNat ∧ -12 ≤ t.tzOffsetHours.toInt ∧ t.tzOffsetHours.toInt ≤ 14 ∧
    0 ≤ t.instant ∧ t.instant < 2 ^ 32

instance : Decidable t.Valid := inferInstanceAs (Decidable (_ ∧ _))

instance : Decidable t.Stampable := inferInstanceAs (Decidable (_ ∧ _))

end EsdTime

/-! ## Time zones -/

/-- The day after, as the first loop of `rtc_apply_timezone` goes on to it. -/
def rtcNextDay (c : CivilDate) : CivilDate :=
  if rtcDaysInMonth c.month c.year < c.day + 1 then
    if 12 < c.month + 1 then ⟨c.year + 1, 1, 1⟩ else ⟨c.year, c.month + 1, 1⟩
  else { c with day := c.day + 1 }

def rtcPrevDay (c : CivilDate) : CivilDate :=
  if c.day - 1 < 1 then
    if c.month - 1 < 1 then ⟨c.year - 1, 12, rtcDaysInMonth 12 (c.year - 1)⟩
    else ⟨c.year, c.month - 1, rtcDaysInMonth (c.month - 1) c.year⟩
  else { c with day := c.day - 1 }

def daysForward (hour : ℤ) (c : CivilDate) : ℤ × CivilDate :=
  if 24 ≤ hour then daysForward (hour - 24) (rtcNextDay c) else (hour, c)
termination_by hour.toNat

def daysBack (hour : ℤ) (c : CivilDate) : ℤ × CivilDate :=
  if hour < 0 then daysBack (hour + 24) (rtcPrevDay c) else (hour, c)
termination_by (-hour).toNat

def rtcApplyTimezone (t : EsdTime) (offsetHours : ℤ) : EsdTime :=
  let (hour, c) := daysForward (t.hour.toNat + offsetHours) t.date
  let (hour, c) := daysBack hour c
  { t with
    year := .ofInt c.year
    month := .ofInt c.month
    day := .ofInt c.day
    hour := .ofInt hour
    tzOffsetHours := .ofInt (t.tzOffsetHours.toInt + offsetHours) }

end EsdumanOS
