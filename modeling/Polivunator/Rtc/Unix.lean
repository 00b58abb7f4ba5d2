import Polivunator.Library.Calendar
import Polivunator.Rtc.Registers

/-!
# Seconds since 1970

`settimeUnix` takes a number of seconds apart into a date and a time of day, sets
the module to it and reads it back; `funcCalculationUnix` puts the fields together
again.  `gettimeUnix_settimeUnix` is the round trip, for every 32-bit number and
whatever the module held before.

Both sides take every fourth year for a leap year.  `settimeUnix_date_iff` says
what this means for the date itself: it is the one had by counting the days from
1 January 1970 on up to the end of February 2100, and not a day longer.
-/

namespace Polivunator.Rtc

open Calendar

/-- The variables of the class that hold a time. -/
structure Variables where
  seconds : UInt8
  minutes : UInt8
  hours : UInt8
  Hours : UInt8
  midday : UInt8
  day : UInt8
  weekday : UInt8
  month : UInt8
  year : UInt8
  Unix : UInt32
  valCentury : UInt8

/-- The variables as the constructor leaves them. -/
def Variables.initial : Variables where
  seconds := 0
  minutes := 0
  hours := 1
  Hours := 0
  midday := 0
  day := 1
  weekday := 0
  month := 1
  year := 0
  Unix := 0
  valCentury := 21

/-- The class and the module. -/
structure Device where
  rtc : Variables
  registers : Registers

/-! ### The class -/

/-- `funcCalculationUnix()`. -/
def funcCalculationUnix (t : Variables) : UInt32 :=
  let j := (t.valCentury.toUInt32 - 1) * 100 + t.year.toUInt32
  let i := j - 1970
  let i := i * 365 + (i + 1) / 4
  let i := i + ((t.month.toUInt32 - 1) * 30 + (t.month.toUInt32 + if t.month < 9 then 0 else 1) / 2)
  let i := i - if t.month > 2 then (if j % 4 = 0 then 1 else 2) else 0
  let i := i + (t.day.toUInt32 - 1)
  let i := i * 86400
  i + (t.Hours.toUInt32 * 3600 + t.minutes.toUInt32 * 60 + t.seconds.toUInt32)

/-- `funcReadTime()`, with what the seven reads of the module return. -/
def funcReadTime (reads : Nat → UInt8) (t : Variables) : Variables :=
  let t := { t with
    seconds := funcConvertCodeToNum (reads 0)
    minutes := funcConvertCodeToNum (reads 1)
    Hours := funcConvertCodeToNum (reads 2)
    day := funcConvertCodeToNum (reads 3)
    month := funcConvertCodeToNum (reads 4)
    year := funcConvertCodeToNum (reads 5)
    weekday := funcConvertCodeToNum (reads 6) - 1 }
  { t with Unix := funcCalculationUnix t }

/-- `funcSetMoreTime()`. -/
def funcSetMoreTime (t : Variables) : Variables :=
  { t with
    hours := if t.Hours % 12 ≠ 0 then t.Hours % 12 else 12
    midday := if t.Hours < 12 then 0 else 1 }

/-- `settime(i1, i2, i3, i4, i5, i6, i7)`. -/
def settime (i1 i2 i3 i4 i5 i6 i7 : Int) (d : Device) : Device :=
  let r := funcWriteTime i1 i2 i3 i4 i5 i6 i7 d.registers
  ⟨funcSetMoreTime (funcReadTime (funcReadTimeIndex r) d.rtc), r⟩

/-- `gettimeUnix()`: `gettime("")` reads the module. -/
def gettimeUnix (d : Device) : UInt32 :=
  (funcSetMoreTime (funcReadTime (funcReadTimeIndex d.registers) d.rtc)).Unix

/-- The loop over the years: `j` of them are over after `i` days. -/
def settimeUnixYears (i j : Nat) : Nat :=
  if (j + 1) * 365 + (j + 2) / 4 ≤ i then settimeUnixYears i (j + 1) else j
termination_by i - j

/-- The days of a month, as the loop over the months has them. -/
def monthLength (february : Bool) (j : Nat) : Nat :=
  let k := if february then 29 else 28
  if ((j + 1) % 2) ^^^ (if j < 8 then 1 else 0) ≠ 0 then 31 else if j = 2 then k else 30

theorem monthLength_pos (february : Bool) (j : Nat) : 0 < monthLength february j := by
  unfold monthLength
  dsimp only
  split_ifs <;> decide

/-- The loop over the months: the month and what is left of the days. -/
def settimeUnixMonths (february : Bool) (i month : Nat) : Nat × Nat :=
  if i ≥ monthLength february (month + 1) then
    settimeUnixMonths february (i - monthLength february (month + 1)) (month + 1)
  else (month + 1, i)
termination_by i
decreasing_by
  have hpos := monthLength_pos february (month + 1)
  omega

/-- What `settimeUnix` puts into the variables. -/
def settimeUnixVariables (i : Nat) (t : Variables) : Variables :=
  let seconds := i % 60
  let i := (i - seconds) / 60
  let minutes := i % 60
  let i := (i - minutes) / 60
  let Hours := i % 24
  let i := (i - Hours) / 24
  let j := settimeUnixYears i 0
  let weekday := (i + 4) % 7
  let i := i - j * 365 - (j + 1) / 4
  let valCentury := (1970 + j) / 100 + 1
  let year := (1970 + j) % 100
  let m := settimeUnixMonths (decide ((1970 + j) % 4 = 0)) i 0
  let day := m.2 + 1
  { t with
    seconds := UInt8.ofNat seconds
    minutes := UInt8.ofNat minutes
    Hours := UInt8.ofNat Hours
    day := UInt8.ofNat day
    weekday := UInt8.ofNat weekday
    month := UInt8.ofNat m.1
    year := UInt8.ofNat year
    valCentury := UInt8.ofNat valCentury }

/-- `settimeUnix(i)`. -/
def settimeUnix (i : UInt32) (d : Device) : Device :=
  let t := settimeUnixVariables i.toNat d.rtc
  settime t.seconds.toNat t.minutes.toNat t.Hours.toNat t.day.toNat t.month.toNat t.year.toNat
    t.weekday.toNat { d with rtc := t }

/-! ### The two loops -/

/-- Every fourth year is a leap year. -/
def fourthYear (year : Nat) : Bool := decide (year % 4 = 0)

theorem yearsDays_fourthYear (k : Nat) : yearsDays fourthYear 1970 k = k * 365 + (k + 1) / 4 := by
  induction k with
  | zero => rfl
  | succ k ih =>
    rw [yearsDays, ih, yearDays, fourthYear]
    split_ifs with h
    · rw [decide_eq_true_eq] at h
      omega
    · rw [decide_eq_true_eq] at h
      omega

theorem settimeUnixYears_spec {i j : Nat} (h : j * 365 + (j + 1) / 4 ≤ i) :
    settimeUnixYears i j * 365 + (settimeUnixYears i j + 1) / 4 ≤ i ∧
      i < (settimeUnixYears i j + 1) * 365 + (settimeUnixYears i j + 2) / 4 := by
  induction j using settimeUnixYears.induct i with
  | case1 j hmore ih =>
    rw [settimeUnixYears, if_pos hmore]
    exact ih hmore
  | case2 j hdone =>
    rw [settimeUnixYears, if_neg hdone]
    exact ⟨h, Nat.not_le.mp hdone⟩

/-- The lengths of the months are those of the calendar. -/
theorem monthLength_eq (year : Nat) {month : Nat} (hpos : 1 ≤ month) (hle : month ≤ 12) :
    monthLength (fourthYear year) month = monthDays fourthYear year month := by
  interval_cases month <;> simp [monthLength, monthDays]

theorem settimeUnixMonths_spec (year i month : Nat)
    (h : monthsDays fourthYear year month + i < yearDays fourthYear year) (hmonth : month < 12) :
    1 ≤ (settimeUnixMonths (fourthYear year) i month).1 ∧
      (settimeUnixMonths (fourthYear year) i month).1 ≤ 12 ∧
      (settimeUnixMonths (fourthYear year) i month).2 <
        monthDays fourthYear year (settimeUnixMonths (fourthYear year) i month).1 ∧
      monthsDays fourthYear year ((settimeUnixMonths (fourthYear year) i month).1 - 1) +
          (settimeUnixMonths (fourthYear year) i month).2 =
        monthsDays fourthYear year month + i := by
  induction i, month using settimeUnixMonths.induct (fourthYear year) with
  | case1 i month hmore ih =>
    rw [settimeUnixMonths, if_pos hmore]
    rw [monthLength_eq year (by omega) (by omega)] at hmore ih ⊢
    have hnext : monthsDays fourthYear year (month + 1) =
        monthsDays fourthYear year month + monthDays fourthYear year (month + 1) := rfl
    have htwelve : monthsDays fourthYear year (11 + 1) = yearDays fourthYear year :=
      monthsDays_twelve fourthYear year
    -- december is never left: the year would be over
    have hlast : month + 1 < 12 := by
      rcases Nat.lt_or_ge (month + 1) 12 with hlt | hge
      · exact hlt
      · obtain rfl : month = 11 := by omega
        omega
    obtain ⟨hpos, hle, hday, hsum⟩ := ih (by omega) hlast
    refine ⟨hpos, hle, hday, ?_⟩
    rw [hsum]
    omega
  | case2 i month hdone =>
    rw [settimeUnixMonths, if_neg hdone]
    rw [monthLength_eq year (by omega) (by omega)] at hdone
    exact ⟨Nat.succ_pos _, hmonth, Nat.not_le.mp hdone, rfl⟩

/-! ### The date and the time of day -/

/-- The variables hold a date and a time of day.  1 January 1970 was a Thursday. -/
structure Holds (t : Variables) (d : Date) (second : Nat) : Prop where
  seconds : t.seconds = UInt8.ofNat (second % 60)
  minutes : t.minutes = UInt8.ofNat (second / 60 % 60)
  Hours : t.Hours = UInt8.ofNat (second / 3600)
  day : t.day = UInt8.ofNat d.day
  month : t.month = UInt8.ofNat d.month
  year : t.year = UInt8.ofNat (d.year % 100)
  valCentury : t.valCentury = UInt8.ofNat (d.year / 100 + 1)
  weekday : t.weekday = UInt8.ofNat ((Date.dayNumber fourthYear 1970 d + 4) % 7)

/-- The date `settimeUnix` comes to after so many days. -/
def civil (i : Nat) : Date :=
  let j := settimeUnixYears i 0
  let m := settimeUnixMonths (fourthYear (1970 + j)) (i - j * 365 - (j + 1) / 4) 0
  ⟨1970 + j, m.1, m.2 + 1⟩

/-- **The date is one of the calendar, and its number is that of the day.** -/
theorem civil_spec (i : Nat) :
    (civil i).Valid fourthYear ∧ 1970 ≤ (civil i).year ∧
      Date.dayNumber fourthYear 1970 (civil i) = i := by
  obtain ⟨hlow, hhigh⟩ := settimeUnixYears_spec (i := i) (j := 0) (Nat.zero_le _)
  have hnext := yearsDays_fourthYear (settimeUnixYears i 0 + 1)
  have hyears := yearsDays_fourthYear (settimeUnixYears i 0)
  rw [yearsDays] at hnext
  obtain ⟨hpos, hle, hday, hsum⟩ := settimeUnixMonths_spec (1970 + settimeUnixYears i 0)
    (i - settimeUnixYears i 0 * 365 - (settimeUnixYears i 0 + 1) / 4) 0
    (by rw [monthsDays]; omega) (by decide)
  refine ⟨⟨hpos, hle, Nat.succ_pos _, hday⟩, Nat.le_add_right .., ?_⟩
  rw [monthsDays] at hsum
  simp only [Date.dayNumber, civil, Nat.add_sub_cancel_left, Nat.add_sub_cancel]
  omega

theorem settimeUnixVariables_holds (i : Nat) (t : Variables) :
    Holds (settimeUnixVariables i t) (civil (i / 86400)) (i % 86400) := by
  have hminutes : (i - i % 60) / 60 = i / 60 := by omega
  have hhours : (i / 60 - i / 60 % 60) / 60 = i / 3600 := by omega
  have hdays : (i / 3600 - i / 3600 % 24) / 24 = i / 86400 := by omega
  have hsecond : i % 86400 % 60 = i % 60 := by omega
  have hminute : i % 86400 / 60 % 60 = i / 60 % 60 := by omega
  have hhour : i % 86400 / 3600 = i / 3600 % 24 := by omega
  constructor
  · rw [hsecond]
    rfl
  · rw [hminute]
    simp only [settimeUnixVariables, hminutes]
  · rw [hhour]
    simp only [settimeUnixVariables, hminutes, hhours]
  case weekday =>
    rw [(civil_spec _).2.2]
    simp only [settimeUnixVariables, hminutes, hhours, hdays]
  all_goals simp only [settimeUnixVariables, civil, fourthYear, hminutes, hhours, hdays]

/-! ### Putting the fields together -/

/-- The days of the first months, as `funcCalculationUnix` counts them. -/
theorem monthsDays_fourthYear (year : Nat) {month : Nat} (hpos : 1 ≤ month) (hle : month ≤ 12) :
    monthsDays fourthYear year (month - 1) +
        (if month > 2 then (if year % 4 = 0 then 1 else 2) else 0) =
      (month - 1) * 30 + (month + if month < 9 then 0 else 1) / 2 := by
  by_cases h : year % 4 = 0
  · interval_cases month <;> simp [monthsDays, monthDays, fourthYear, h]
  · interval_cases month <;> simp [monthsDays, monthDays, fourthYear, h]

theorem toUInt32_ofNat {n : Nat} (h : n < 256) : (UInt8.ofNat n).toUInt32 = UInt32.ofNat n :=
  UInt8.toUInt32_ofNat' h

/-- **The number of seconds** that belongs to a date and a time of day. -/
theorem Holds.unix {t : Variables} {d : Date} {second : Nat} (h : Holds t d second)
    (hd : d.Valid fourthYear) (hfirst : 1970 ≤ d.year) (hlast : d.year < 25500)
    (hsecond : second < 86400) :
    funcCalculationUnix t = UInt32.ofNat (Date.dayNumber fourthYear 1970 d * 86400 + second) := by
  have hmonth := hd.month_le
  have hmonth' := hd.month_pos
  have hday := hd.day_le_31
  have hday' := hd.day_pos
  -- the year
  have hyear : (t.valCentury.toUInt32 - 1) * 100 + t.year.toUInt32 = UInt32.ofNat d.year := by
    rw [h.valCentury, h.year, toUInt32_ofNat (by omega), toUInt32_ofNat (by omega),
      show (1 : UInt32) = UInt32.ofNat 1 from rfl, show (100 : UInt32) = UInt32.ofNat 100 from rfl,
      ← UInt32.ofNat_sub (by omega), ← UInt32.ofNat_mul, ← UInt32.ofNat_add]
    congr 1
    omega
  have hyears : (UInt32.ofNat d.year - 1970) * 365 + (UInt32.ofNat d.year - 1970 + 1) / 4 =
      UInt32.ofNat (yearsDays fourthYear 1970 (d.year - 1970)) := by
    rw [show (1970 : UInt32) = UInt32.ofNat 1970 from rfl, ← UInt32.ofNat_sub hfirst,
      show (1 : UInt32) = UInt32.ofNat 1 from rfl, show (365 : UInt32) = UInt32.ofNat 365 from rfl,
      show (4 : UInt32) = UInt32.ofNat 4 from rfl, ← UInt32.ofNat_mul, ← UInt32.ofNat_add,
      ← UInt32.ofNat_div (by omega) (by decide), ← UInt32.ofNat_add, yearsDays_fourthYear]
  -- the month
  have hless : (t.month < 9) = (d.month < 9) := by
    rw [h.month, UInt8.lt_iff_toNat_lt, UInt8.toNat_ofNat', Nat.mod_eq_of_lt (by omega)]
    rfl
  have hmore : (t.month > 2) = (d.month > 2) := by
    rw [h.month, gt_iff_lt, UInt8.lt_iff_toNat_lt, UInt8.toNat_ofNat', Nat.mod_eq_of_lt (by omega)]
    rfl
  have hadd : (t.month.toUInt32 - 1) * 30 +
      (t.month.toUInt32 + if t.month < 9 then 0 else 1) / 2 =
      UInt32.ofNat ((d.month - 1) * 30 + (d.month + if d.month < 9 then 0 else 1) / 2) := by
    simp only [hless]
    rw [h.month, toUInt32_ofNat (by omega)]
    interval_cases d.month <;> rfl
  have hleap : (UInt32.ofNat d.year % 4 = 0) = (d.year % 4 = 0) := by
    rw [show (4 : UInt32) = UInt32.ofNat 4 from rfl, ← UInt32.ofNat_mod (by omega) (by decide),
      ← UInt32.toNat_inj, UInt32.toNat_ofNat', Nat.mod_eq_of_lt (by omega)]
    rfl
  have hsub : (if t.month > 2 then (if UInt32.ofNat d.year % 4 = 0 then 1 else 2) else 0 : UInt32) =
      UInt32.ofNat (if d.month > 2 then (if d.year % 4 = 0 then 1 else 2) else 0) := by
    simp only [hmore, hleap]
    split_ifs <;> rfl
  -- the day and the time of day
  have hdays : t.day.toUInt32 - 1 = UInt32.ofNat (d.day - 1) := by
    rw [h.day, toUInt32_ofNat (by omega), UInt32.ofNat_sub hday']
    rfl
  have htime : t.Hours.toUInt32 * 3600 + t.minutes.toUInt32 * 60 + t.seconds.toUInt32 =
      UInt32.ofNat second := by
    rw [h.Hours, h.minutes, h.seconds, toUInt32_ofNat (by omega), toUInt32_ofNat (by omega),
      toUInt32_ofNat (by omega), show (3600 : UInt32) = UInt32.ofNat 3600 from rfl,
      show (60 : UInt32) = UInt32.ofNat 60 from rfl, ← UInt32.ofNat_mul, ← UInt32.ofNat_mul,
      ← UInt32.ofNat_add, ← UInt32.ofNat_add]
    congr 1
    omega
  have hmonths := monthsDays_fourthYear d.year hmonth' hmonth
  have hnumber : Date.dayNumber fourthYear 1970 d =
      yearsDays fourthYear 1970 (d.year - 1970) +
          ((d.month - 1) * 30 + (d.month + if d.month < 9 then 0 else 1) / 2) -
        (if d.month > 2 then (if d.year % 4 = 0 then 1 else 2) else 0) + (d.day - 1) := by
    unfold Date.dayNumber
    omega
  unfold funcCalculationUnix
  dsimp only
  rw [hnumber, hyear, hyears, hadd, hsub, hdays, htime, ← UInt32.ofNat_add, ← UInt32.ofNat_sub (by omega),
    ← UInt32.ofNat_add, show (86400 : UInt32) = UInt32.ofNat 86400 from rfl, ← UInt32.ofNat_mul,
    ← UInt32.ofNat_add]

/-! ### Setting and getting -/

theorem ofInt_toNat (n : UInt8) : UInt8.ofInt (n.toNat : Int) = n := by
  apply UInt8.toNat_inj.mp
  have hlt := n.toNat_lt
  rw [UInt8.ofInt, UInt8.toNat_ofNat']
  omega

/-- What is within its limits is in the module afterwards. -/
theorem read_bytes (x : Nat → UInt8) (r : Registers) {k : Nat} (hk : k < 7)
    (h : (limits.getD k (0, 0)).1 ≤ (x k).toNat ∧ (x k).toNat ≤ (limits.getD k (0, 0)).2) :
    funcConvertCodeToNum (funcReadTimeIndex (funcWriteTime (x 0).toNat (x 1).toNat (x 2).toNat
      (x 3).toNat (x 4).toNat (x 5).toNat (x 6).toNat r) k) = if k = 6 then x k + 1 else x k := by
  rw [read_funcWriteTime (fun k => (x k).toNat) r hk, if_pos h, written]
  split_ifs
  · rw [UInt8.ofInt_add, ofInt_toNat, UInt8.ofInt_one]
  · exact ofInt_toNat _

/-- **Setting the time of the variables** leaves them as they are. -/
theorem Holds.settime {d : Device} {date : Date} {second : Nat} (h : Holds d.rtc date second)
    (hd : date.Valid fourthYear) (hsecond : second < 86400) :
    Holds (settime d.rtc.seconds.toNat d.rtc.minutes.toNat d.rtc.Hours.toNat d.rtc.day.toNat
      d.rtc.month.toNat d.rtc.year.toNat d.rtc.weekday.toNat d).rtc date second := by
  have hday := hd.day_pos
  have hday' := hd.day_le_31
  have hmonth := hd.month_pos
  have hmonth' := hd.month_le
  have hnat : ∀ {n : UInt8} {k : Nat}, n = UInt8.ofNat k → k < 256 → n.toNat = k := by
    intro n k hn hk
    rw [hn, UInt8.toNat_ofNat', Nat.mod_eq_of_lt hk]
  -- the seven fields
  let x : Nat → UInt8 := fun k => [d.rtc.seconds, d.rtc.minutes, d.rtc.Hours, d.rtc.day,
    d.rtc.month, d.rtc.year, d.rtc.weekday].getD k 0
  have hread := fun {k : Nat} (hk : k < 7) => read_bytes x d.registers hk
  constructor
  · have hseconds := hnat h.seconds (by omega)
    refine (hread (k := 0) (by decide) ?_).trans h.seconds
    show (0 : Int) ≤ d.rtc.seconds.toNat ∧ (d.rtc.seconds.toNat : Int) ≤ 60
    omega
  · have hminutes := hnat h.minutes (by omega)
    refine (hread (k := 1) (by decide) ?_).trans h.minutes
    show (0 : Int) ≤ d.rtc.minutes.toNat ∧ (d.rtc.minutes.toNat : Int) ≤ 60
    omega
  · have hHours := hnat h.Hours (by omega)
    refine (hread (k := 2) (by decide) ?_).trans h.Hours
    show (0 : Int) ≤ d.rtc.Hours.toNat ∧ (d.rtc.Hours.toNat : Int) ≤ 23
    omega
  · have hdays := hnat h.day (by omega)
    refine (hread (k := 3) (by decide) ?_).trans h.day
    show (1 : Int) ≤ d.rtc.day.toNat ∧ (d.rtc.day.toNat : Int) ≤ 31
    omega
  · have hmonths := hnat h.month (by omega)
    refine (hread (k := 4) (by decide) ?_).trans h.month
    show (1 : Int) ≤ d.rtc.month.toNat ∧ (d.rtc.month.toNat : Int) ≤ 12
    omega
  · have hyear := hnat h.year (by omega)
    refine (hread (k := 5) (by decide) ?_).trans h.year
    show (0 : Int) ≤ d.rtc.year.toNat ∧ (d.rtc.year.toNat : Int) ≤ 99
    omega
  · exact h.valCentury
  · have hweekday := hnat h.weekday (by omega)
    refine Eq.trans ?_ h.weekday
    show funcConvertCodeToNum (funcReadTimeIndex (funcWriteTime (x 0).toNat (x 1).toNat
      (x 2).toNat (x 3).toNat (x 4).toNat (x 5).toNat (x 6).toNat d.registers) 6) - 1 =
        d.rtc.weekday
    rw [hread (k := 6) (by decide), if_pos rfl]
    · exact UInt8.add_sub_cancel ..
    · show (0 : Int) ≤ d.rtc.weekday.toNat ∧ (d.rtc.weekday.toNat : Int) ≤ 6
      omega

theorem settimeUnix_holds (i : UInt32) (d : Device) :
    Holds (settimeUnix i d).rtc (civil (i.toNat / 86400)) (i.toNat % 86400) := by
  apply Holds.settime (d := ⟨settimeUnixVariables i.toNat d.rtc, d.registers⟩)
  · exact settimeUnixVariables_holds i.toNat d.rtc
  · exact (civil_spec _).1
  · exact Nat.mod_lt _ (by decide)

/-- There are 136 whole years in 32 bits. -/
theorem civil_year_le (i : UInt32) : (civil (i.toNat / 86400)).year ≤ 2106 := by
  have hi := i.toNat_lt
  obtain ⟨hlow, -⟩ := settimeUnixYears_spec (i := i.toNat / 86400) (j := 0) (Nat.zero_le _)
  show 1970 + settimeUnixYears (i.toNat / 86400) 0 ≤ 2106
  omega

/-- **The seconds are those that were set**, whatever the module held before. -/
theorem gettimeUnix_settimeUnix (i : UInt32) (d : Device) :
    gettimeUnix (settimeUnix i d) = i := by
  obtain ⟨hvalid, hfirst, hnumber⟩ := civil_spec (i.toNat / 86400)
  have hyear := civil_year_le i
  have hunix := (settimeUnix_holds i d).unix hvalid hfirst (by omega) (Nat.mod_lt _ (by decide))
  rw [hnumber, Nat.div_add_mod' i.toNat 86400, UInt32.ofNat_toNat] at hunix
  exact hunix

/-! ### The calendar -/

/-- The leap years of the Gregorian calendar. -/
def gregorian (year : Nat) : Bool :=
  decide (year % 4 = 0 ∧ (year % 100 ≠ 0 ∨ year % 400 = 0))

/-- The date of the variables. -/
def Variables.date (t : Variables) : Date :=
  ⟨(t.valCentury.toNat - 1) * 100 + t.year.toNat, t.month.toNat, t.day.toNat⟩

theorem Holds.date {t : Variables} {d : Date} {second : Nat} (h : Holds t d second)
    (hd : d.Valid fourthYear) (hyear : d.year < 25500) : t.date = d := by
  have hday := hd.day_le_31
  have hmonth := hd.month_le
  obtain ⟨year, month, day⟩ := d
  simp only at hday hmonth hyear
  simp only [Variables.date, h.valCentury, h.year, h.month, h.day, UInt8.toNat_ofNat', Date.mk.injEq]
  refine ⟨?_, ?_, ?_⟩
  · omega
  · omega
  · omega

/-- Up to 2106 the year 2100 alone is a leap year on one side only. -/
theorem gregorian_eq {year : Nat} (hfirst : 1970 ≤ year) (hlast : year ≤ 2106) (h : year ≠ 2100) :
    gregorian year = fourthYear year := by
  unfold gregorian fourthYear
  rw [decide_eq_decide]
  omega

theorem yearsDays_gregorian : ∀ k ≤ 136,
    yearsDays gregorian 1970 k + (if 130 < k then 1 else 0) = yearsDays fourthYear 1970 k := by
  decide +kernel

theorem monthsDays_gregorian_2100 : ∀ k ≤ 12,
    monthsDays gregorian 2100 k + (if 1 < k then 1 else 0) = monthsDays fourthYear 2100 k := by
  decide

/-- **From March 2100 on the numbers are one apart.** -/
theorem dayNumber_gregorian {d : Date} (hd : d.Valid fourthYear) (hfirst : 1970 ≤ d.year)
    (hlast : d.year ≤ 2106) :
    Date.dayNumber gregorian 1970 d +
        (if 2100 < d.year ∨ d.year = 2100 ∧ 2 < d.month then 1 else 0) =
      Date.dayNumber fourthYear 1970 d := by
  have hyears := yearsDays_gregorian (d.year - 1970) (by omega)
  have hmonth := hd.month_le
  unfold Date.dayNumber
  by_cases h : d.year = 2100
  · have hmonths := monthsDays_gregorian_2100 (d.month - 1) (by omega)
    rw [h] at hyears ⊢
    split_ifs at hyears hmonths ⊢ <;> omega
  · rw [monthsDays_congr (gregorian_eq hfirst hlast h)]
    split_ifs at hyears ⊢ <;> omega

/-- The dates from 29 February 2100 on, by their number. -/
theorem late_iff {d : Date} (hd : d.Valid fourthYear) (hfirst : 1970 ≤ d.year) :
    (2100 < d.year ∨ d.year = 2100 ∧ 2 < d.month ∨ d = ⟨2100, 2, 29⟩) ↔
      47541 ≤ Date.dayNumber fourthYear 1970 d := by
  obtain ⟨hinside, hyearEnd⟩ := hd.bounds
  have hmono := yearsDays_mono fourthYear 1970
  have hlow : yearsDays fourthYear 1970 130 = 47482 := yearsDays_fourthYear 130
  have hhigh : yearsDays fourthYear 1970 131 = 47848 := yearsDays_fourthYear 131
  rcases Nat.lt_trichotomy d.year 2100 with hlt | h2100 | hgt
  · have hyears : yearsDays fourthYear 1970 (d.year - 1970 + 1) ≤ 47482 := by
      rw [← hlow]
      exact hmono (by omega)
    rw [yearsDays, Nat.add_sub_cancel' hfirst] at hyears
    have hne : d ≠ ⟨2100, 2, 29⟩ := by
      rintro rfl
      exact absurd hlt (by decide)
    simp only [hne, or_false]
    unfold Date.dayNumber
    omega
  · obtain ⟨year, month, day⟩ := d
    obtain ⟨hpos, hle, hday, hday'⟩ := hd
    simp only at h2100 hpos hle hday hday'
    clear hinside hyearEnd
    subst h2100
    have hcases : ∀ month ≤ 12, monthDays fourthYear 2100 month ≤ 31 ∧
        (month = 1 → monthsDays fourthYear 2100 (month - 1) = 0) ∧
        (month = 2 → monthsDays fourthYear 2100 (month - 1) = 31) ∧
        (month = 2 → monthDays fourthYear 2100 month = 29) ∧
        (2 < month → 60 ≤ monthsDays fourthYear 2100 (month - 1)) := by
      decide
    obtain ⟨hlength, hjan, hfeb, hfeb', hrest⟩ := hcases month hle
    simp only [Date.dayNumber, Date.mk.injEq, Nat.reduceSub, hlow, Nat.lt_irrefl, false_or, true_and]
    omega
  · have hyears : 47848 ≤ yearsDays fourthYear 1970 (d.year - 1970) := by
      rw [← hhigh]
      exact hmono (by omega)
    unfold Date.dayNumber
    omega

/-- **The date is the right one** up to the last day of February 2100. -/
theorem civil_eq_iff {n : Nat} (hyear : (civil n).year ≤ 2106) :
    civil n = (Date.tomorrow gregorian)^[n] ⟨1970, 1, 1⟩ ↔ n < 47541 := by
  obtain ⟨hvalid, hfirst, hnumber⟩ := civil_spec n
  have hlate := late_iff hvalid hfirst
  have hsplit := dayNumber_gregorian hvalid hfirst hyear
  rw [hnumber] at hlate hsplit
  constructor
  · intro heq
    have hgreg : (civil n).Valid gregorian := by
      rw [heq]
      exact (Date.iterate_tomorrow gregorian 1970 n).1
    rw [(Date.eq_iterate_iff hgreg hfirst).mp heq] at hsplit
    rw [← Nat.not_le, ← hlate]
    rintro (hgt | h2100 | hfeb)
    · rw [if_pos (Or.inl hgt)] at hsplit
      omega
    · rw [if_pos (Or.inr h2100)] at hsplit
      omega
    · rw [hfeb] at hgreg
      exact absurd hgreg.day_le (by decide)
  · intro hn
    rw [← Nat.not_le, ← hlate, not_or, not_or] at hn
    obtain ⟨hgt, h2100, hfeb⟩ := hn
    rw [if_neg (by omega), Nat.add_zero] at hsplit
    refine (Date.eq_iterate_iff ⟨hvalid.month_pos, hvalid.month_le, hvalid.day_pos, ?_⟩ hfirst).mpr
      hsplit
    have hday := hvalid.day_le
    by_cases hyear2100 : (civil n).year = 2100
    · have hcases : ∀ month ≤ 2, monthDays fourthYear 2100 month =
          monthDays gregorian 2100 month + if month = 2 then 1 else 0 := by
        decide
      rw [hyear2100] at hday ⊢
      rw [hcases _ (by omega)] at hday
      split_ifs at hday with h2
      · have hlast : (civil n).day ≠ 29 := by
          intro h29
          apply hfeb
          rw [← hyear2100, ← h2, ← h29]
        have hlength : monthDays gregorian 2100 (civil n).month = 28 := by
          rw [h2]
          decide
        omega
      · exact hday
    · rw [monthDays_congr (gregorian_eq hfirst hyear hyear2100)]
      exact hday

/-- **The date of a number of seconds** is the one had by counting the days from
1 January 1970 on, exactly up to the end of February 2100. -/
theorem settimeUnix_date_iff (i : UInt32) (d : Device) :
    (settimeUnix i d).rtc.date = (Date.tomorrow gregorian)^[i.toNat / 86400] ⟨1970, 1, 1⟩ ↔
      i < 4107542400 := by
  have hyear := civil_year_le i
  rw [(settimeUnix_holds i d).date (civil_spec _).1 (by omega), civil_eq_iff hyear,
    UInt32.lt_iff_toNat_lt, show (4107542400 : UInt32).toNat = 47541 * 86400 from rfl]
  omega

end Polivunator.Rtc
