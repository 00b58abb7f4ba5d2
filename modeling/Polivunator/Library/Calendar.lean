import Mathlib.Logic.Function.Iterate
import Mathlib.Order.Monotone.Basic
import Mathlib.Tactic.IntervalCases
import Mathlib.Tactic.SplitIfs

/-!
# Counting days

A calendar with the usual twelve months and any rule for its leap years.
`Date.tomorrow` is the next day, so the date of a day is had by counting on from
the first one.  `dayNumber` adds up the days of the years and months before a
date.  `eq_iterate_iff` says that a date is the one of a day if and only if its
number is that of the day.
-/

namespace Calendar

structure Date where
  year : Nat
  month : Nat
  day : Nat
  deriving DecidableEq

section Leap

variable (leap : Nat → Bool)

/-- The days of a month. -/
def monthDays (year month : Nat) : Nat :=
  if month = 2 then if leap year then 29 else 28
  else if month = 4 ∨ month = 6 ∨ month = 9 ∨ month = 11 then 30 else 31

/-- The days of a year. -/
def yearDays (year : Nat) : Nat := if leap year then 366 else 365

/-- The days of the first months of a year. -/
def monthsDays (year : Nat) : Nat → Nat
  | 0 => 0
  | k + 1 => monthsDays year k + monthDays leap year (k + 1)

/-- The days of some years from `first` on. -/
def yearsDays (first : Nat) : Nat → Nat
  | 0 => 0
  | k + 1 => yearsDays first k + yearDays leap (first + k)

namespace Date

/-- The next day. -/
def tomorrow (d : Date) : Date :=
  if d.day < monthDays leap d.year d.month then ⟨d.year, d.month, d.day + 1⟩
  else if d.month < 12 then ⟨d.year, d.month + 1, 1⟩
  else ⟨d.year + 1, 1, 1⟩

/-- The date is one of the calendar. -/
structure Valid (d : Date) : Prop where
  month_pos : 1 ≤ d.month
  month_le : d.month ≤ 12
  day_pos : 1 ≤ d.day
  day_le : d.day ≤ monthDays leap d.year d.month

/-- How many days there are before it from the year `first` on. -/
def dayNumber (first : Nat) (d : Date) : Nat :=
  yearsDays leap first (d.year - first) + monthsDays leap d.year (d.month - 1) + (d.day - 1)

end Date

/-! ### Sums of days -/

theorem monthDays_pos (year month : Nat) : 1 ≤ monthDays leap year month := by
  unfold monthDays
  split_ifs <;> decide

theorem monthsDays_twelve (year : Nat) : monthsDays leap year 12 = yearDays leap year := by
  cases h : leap year <;> simp [monthsDays, monthDays, yearDays, h]

theorem monthsDays_mono (year : Nat) : Monotone (monthsDays leap year) :=
  monotone_nat_of_le_succ fun _ => Nat.le_add_right ..

theorem yearsDays_mono (first : Nat) : Monotone (yearsDays leap first) :=
  monotone_nat_of_le_succ fun _ => Nat.le_add_right ..

/-- Only the year itself says how long its months are. -/
theorem monthDays_congr {leap leap' : Nat → Bool} {year : Nat} (h : leap year = leap' year)
    (month : Nat) : monthDays leap year month = monthDays leap' year month := by
  unfold monthDays
  rw [h]

theorem monthsDays_congr {leap leap' : Nat → Bool} {year : Nat} (h : leap year = leap' year)
    (k : Nat) : monthsDays leap year k = monthsDays leap' year k := by
  induction k with
  | zero => rfl
  | succ k ih => rw [monthsDays, monthsDays, ih, monthDays_congr h]

/-- A number lies between two neighbours of a monotone sequence only once. -/
theorem eq_of_between {f : Nat → Nat} (hf : Monotone f) {x k l : Nat} (hk : f k ≤ x)
    (hk' : x < f (k + 1)) (hl : f l ≤ x) (hl' : x < f (l + 1)) : k = l := by
  rcases Nat.lt_trichotomy k l with hlt | heq | hlt
  · have hle : f (k + 1) ≤ f l := hf hlt
    omega
  · exact heq
  · have hle : f (l + 1) ≤ f k := hf hlt
    omega

namespace Date

variable {leap}

theorem Valid.day_le_31 {d : Date} (h : d.Valid leap) : d.day ≤ 31 := by
  refine h.day_le.trans ?_
  unfold monthDays
  split_ifs <;> decide

/-! ### The next day -/

theorem Valid.tomorrow {d : Date} (h : d.Valid leap) : (d.tomorrow leap).Valid leap := by
  unfold Date.tomorrow
  split_ifs with hday hmonth
  · exact ⟨h.month_pos, h.month_le, Nat.succ_pos _, hday⟩
  · exact ⟨Nat.succ_pos _, hmonth, Nat.le_refl 1, monthDays_pos leap _ _⟩
  · exact ⟨Nat.le_refl 1, Nat.le_of_ble_eq_true rfl, Nat.le_refl 1, monthDays_pos leap _ _⟩

theorem year_le_tomorrow (d : Date) : d.year ≤ (d.tomorrow leap).year := by
  unfold Date.tomorrow
  split_ifs
  · exact Nat.le_refl _
  · exact Nat.le_refl _
  · exact Nat.le_succ _

/-- **The next day has the next number.** -/
theorem dayNumber_tomorrow {first : Nat} {d : Date} (h : d.Valid leap) (hfirst : first ≤ d.year) :
    dayNumber leap first (d.tomorrow leap) = dayNumber leap first d + 1 := by
  obtain ⟨year, month, day⟩ := d
  obtain ⟨hm, hm', hd, hd'⟩ := h
  simp only at hm hm' hd hd' hfirst
  unfold Date.tomorrow
  split_ifs with hday hmonth
  · simp only [dayNumber]
    omega
  · obtain ⟨k, rfl⟩ : ∃ k, month = k + 1 := ⟨month - 1, by omega⟩
    simp only at hday
    simp only [dayNumber, Nat.add_sub_cancel, monthsDays]
    omega
  · have htwelve := monthsDays_twelve leap year
    simp only at hday hmonth
    obtain rfl : month = 12 := by omega
    have hyear : year + 1 - first = year - first + 1 := by omega
    have hback : first + (year - first) = year := by omega
    have hlast : monthsDays leap year 12 = monthsDays leap year 11 + monthDays leap year 12 := rfl
    have hnone : monthsDays leap (year + 1) 0 = 0 := rfl
    simp only [dayNumber, hyear, yearsDays, hback, Nat.reduceSub, hnone]
    omega

/-- A date lies in its year and its month. -/
theorem Valid.bounds {d : Date} (h : d.Valid leap) :
    monthsDays leap d.year (d.month - 1) + (d.day - 1) < monthsDays leap d.year (d.month - 1 + 1) ∧
      monthsDays leap d.year (d.month - 1) + (d.day - 1) < yearDays leap d.year := by
  have hpos := h.month_pos
  have hle := h.month_le
  have hmonth : d.month - 1 + 1 = d.month := by omega
  have hinside : monthsDays leap d.year (d.month - 1) + (d.day - 1) <
      monthsDays leap d.year (d.month - 1 + 1) := by
    rw [monthsDays, hmonth]
    have hday := h.day_le
    have hday' := h.day_pos
    omega
  refine ⟨hinside, ?_⟩
  rw [← monthsDays_twelve]
  exact Nat.lt_of_lt_of_le hinside (monthsDays_mono leap d.year (by omega))

/-- **A number belongs to one date.** -/
theorem dayNumber_inj {first : Nat} {d e : Date} (hd : d.Valid leap) (he : e.Valid leap)
    (hfirst : first ≤ d.year) (hfirst' : first ≤ e.year)
    (h : dayNumber leap first d = dayNumber leap first e) : d = e := by
  obtain ⟨hmonth, hyear⟩ := hd.bounds
  obtain ⟨hmonth', hyear'⟩ := he.bounds
  have hnext : ∀ d : Date, first ≤ d.year →
      yearsDays leap first (d.year - first + 1) =
        yearsDays leap first (d.year - first) + yearDays leap d.year := by
    intro d hle
    rw [yearsDays, Nat.add_sub_cancel' hle]
  have hd' := hnext d hfirst
  have he' := hnext e hfirst'
  unfold dayNumber at h
  have hyears : d.year - first = e.year - first := by
    apply eq_of_between (yearsDays_mono leap first)
      (x := yearsDays leap first (d.year - first) + monthsDays leap d.year (d.month - 1) + (d.day - 1))
    · omega
    · omega
    · omega
    · omega
  have hyear_eq : d.year = e.year := by omega
  rw [hyears, hyear_eq] at h
  rw [hyear_eq] at hmonth
  have hmonths : d.month - 1 = e.month - 1 := by
    apply eq_of_between (monthsDays_mono leap e.year)
      (x := monthsDays leap e.year (d.month - 1) + (d.day - 1))
    · omega
    · exact hmonth
    · omega
    · omega
  rw [hmonths] at h
  have hpos := hd.month_pos
  have hpos' := he.month_pos
  have hday := hd.day_pos
  have hday' := he.day_pos
  obtain ⟨year, month, day⟩ := d
  obtain ⟨year', month', day'⟩ := e
  simp only [Date.mk.injEq] at *
  omega

/-! ### Counting on -/

theorem iterate_tomorrow (leap : Nat → Bool) (first n : Nat) :
    ((tomorrow leap)^[n] ⟨first, 1, 1⟩).Valid leap ∧
      first ≤ ((tomorrow leap)^[n] ⟨first, 1, 1⟩).year ∧
      dayNumber leap first ((tomorrow leap)^[n] ⟨first, 1, 1⟩) = n := by
  induction n with
  | zero =>
    refine ⟨⟨Nat.le_refl 1, Nat.le_of_ble_eq_true rfl, Nat.le_refl 1, monthDays_pos leap _ _⟩,
      Nat.le_refl _, ?_⟩
    simp [dayNumber, yearsDays, monthsDays]
  | succ n ih =>
    obtain ⟨hvalid, hfirst, hnumber⟩ := ih
    rw [Function.iterate_succ_apply']
    refine ⟨hvalid.tomorrow, hfirst.trans (year_le_tomorrow _), ?_⟩
    rw [dayNumber_tomorrow hvalid hfirst, hnumber]

/-- **The date of a day** is the one with its number. -/
theorem eq_iterate_iff {first n : Nat} {d : Date} (h : d.Valid leap) (hfirst : first ≤ d.year) :
    d = (tomorrow leap)^[n] ⟨first, 1, 1⟩ ↔ dayNumber leap first d = n := by
  obtain ⟨hvalid, hfirst', hnumber⟩ := iterate_tomorrow leap first n
  constructor
  · rintro rfl
    exact hnumber
  · intro hd
    apply dayNumber_inj h hvalid hfirst hfirst'
    rw [hd, hnumber]

end Date

end Leap

end Calendar
