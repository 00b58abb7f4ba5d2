import Polivunator.Keypad.Entry
import Polivunator.Rtc.Gettime
import Polivunator.Clock.Timeline
import Polivunator.Valve.History

/-!
# Reading a running clock

`loop()` asks for `gettime("H:i")`.  The seven registers are read one after the
other, each in a transfer of its own, while the module runs on: the minutes come
before the hours, and an hour may end between the two.

`gettime_moment_iff` says when the text is the time of some moment of the
reading: always, except where an hour ends between the two, when it is an hour
ahead.  `valve_iff_registers` takes it to the valves:
without a manual flag the valve of a bed is open after a tick exactly if its
schedule is the hour of the one read and the minute of the other.
What the module holds is stated with `bcd`, apart from the library's own
conversions.
-/

namespace Polivunator

open Labelled

namespace Rtc

/-- The time of day. -/
def timeAt (second : Nat) : Time :=
  ⟨second / 3600 % 24, second / 60 % 60, Nat.mod_lt _ (by decide), Nat.mod_lt _ (by decide)⟩

/-- A number below a hundred as the module keeps it: the tens in the upper four
bits, the ones in the lower four. -/
def bcd (n : Nat) : UInt8 := UInt8.ofNat (16 * (n / 10) + n % 10)

/-- The module runs right: what its registers hold in a second. -/
structure Shows (r : Registers) (second : Nat) : Prop where
  minutes : r 1 = bcd (second / 60 % 60)
  hours : r 2 = bcd (second / 3600 % 24)

/-- A module that holds a second of the day and nothing else. -/
def registersAt (second : Nat) : Registers
  | 1 => bcd (second / 60 % 60)
  | 2 => bcd (second / 3600 % 24)
  | _ => 0

theorem shows_registersAt (second : Nat) : Shows (registersAt second) second := ⟨rfl, rfl⟩

/-- The hour of one moment with the minute of another. -/
def mixed (hourAt minuteAt : Nat) : Time :=
  ⟨hourAt / 3600 % 24, minuteAt / 60 % 60, Nat.mod_lt _ (by decide), Nat.mod_lt _ (by decide)⟩

/-! ### The text -/

theorem ofInt_ofNat (n : Nat) : UInt8.ofInt (n : Int) = UInt8.ofNat n := by
  apply UInt8.toNat_inj.mp
  rw [UInt8.ofInt, UInt8.toNat_ofNat', UInt8.toNat_ofNat']
  omega

/-- The library's code of a number is the module's. -/
theorem funcConvertNumToCode_bcd {n : Nat} (h : n < 100) :
    funcConvertNumToCode (UInt8.ofNat n) = bcd n := by
  have hall : ∀ n < 100, funcConvertNumToCode (UInt8.ofNat n) = bcd n := by decide
  exact hall n h

theorem Shows.read_minutes {r : Registers} {second : Nat} (h : Shows r second) :
    funcConvertCodeToNum (funcReadTimeIndex r 1) = UInt8.ofNat (second / 60 % 60) := by
  have hread := funcConvertCodeToNum_written (i := 1) (by decide) (x := (second / 60 % 60 : Nat))
    (show (0 : Int) ≤ (second / 60 % 60 : Nat) ∧ ((second / 60 % 60 : Nat) : Int) ≤ 60 by omega)
  rw [written, if_neg (by decide), ofInt_ofNat, funcConvertNumToCode_bcd (by omega),
    ← h.minutes] at hread
  exact hread

theorem Shows.read_hours {r : Registers} {second : Nat} (h : Shows r second) :
    funcConvertCodeToNum (funcReadTimeIndex r 2) = UInt8.ofNat (second / 3600 % 24) := by
  have hread := funcConvertCodeToNum_written (i := 2) (by decide) (x := (second / 3600 % 24 : Nat))
    (show (0 : Int) ≤ (second / 3600 % 24 : Nat) ∧ ((second / 3600 % 24 : Nat) : Int) ≤ 23 by omega)
  rw [written, if_neg (by decide), ofInt_ofNat, funcConvertNumToCode_bcd (by omega),
    ← h.hours] at hread
  exact hread

theorem funcFillChar_two : ∀ n < 60,
    [byte ((if UInt8.ofNat n > 99 then 99 else UInt8.ofNat n).toNat / 10 + 48),
        byte ((if UInt8.ofNat n > 99 then 99 else UInt8.ofNat n).toNat % 10 + 48)] =
      WString.ofNat (n / 10) ++ WString.ofNat (n % 10) := by
  decide +kernel

/-- **The text of an hour and a minute.** -/
theorem gettime_hi (reads : Nat → UInt8) {hour minute : Nat} (hh : hour < 24) (hm : minute < 60)
    (hHours : funcConvertCodeToNum (reads 2) = UInt8.ofNat hour)
    (hminutes : funcConvertCodeToNum (reads 1) = UInt8.ofNat minute) (memory : Nat → Char)
    (t : Variables) :
    (gettime "H:i".toList reads memory t).2 = Time.text ⟨hour, minute, hh, hm⟩ := by
  have htwo : ∀ (t : Variables) {n : Nat}, n < 60 →
      (funcFillChar t (UInt8.ofNat n) 1 0).map Prod.fst =
        WString.ofNat (n / 10) ++ WString.ofNat (n % 10) :=
    fun _ _ hn => funcFillChar_two _ hn
  have hrendered : rendered (gettime "H:i".toList reads memory t).1 "H:i".toList =
      (funcFillChar (gettime "H:i".toList reads memory t).1 (UInt8.ofNat hour) 1 0).map Prod.fst ++
        (':' :: ((funcFillChar (gettime "H:i".toList reads memory t).1 (UInt8.ofNat minute) 1 0).map
          Prod.fst ++ [])) := by
    rw [← hHours, ← hminutes]
    rfl
  have hnul : WString.nul ∉ "H:i".toList := by decide
  have hlen : (rendered (gettime "H:i".toList reads memory t).1 "H:i".toList).length < 255 := by
    rw [hrendered]
    exact Nat.le_of_ble_eq_true rfl
  rw [gettime_text _ reads memory t hnul hlen, hrendered, htwo _ (by omega), htwo _ hm]
  simp [Time.text]

/-! ### One reading -/

/-- What the seven reads return, each from the module as it is by then. -/
def reads (r : Nat → Registers) (i : Nat) : UInt8 := funcReadTimeIndex (r i) i

theorem gettime_mixed {r : Nat → Registers} {x : Nat → Nat} (h : ∀ i, Shows (r i) (x i))
    (memory : Nat → Char) (t : Variables) :
    (gettime "H:i".toList (reads r) memory t).2 = (mixed (x 2) (x 1)).text :=
  gettime_hi (reads r) (Nat.mod_lt _ (by decide)) (Nat.mod_lt _ (by decide))
    (h 2).read_hours (h 1).read_minutes memory t

/-- A text belongs to one time. -/
theorem text_inj {u v : Time} (h : u.text = v.text) : u = v := by
  obtain ⟨hour, minute, hh, hm⟩ := u
  obtain ⟨hour', minute', hh', hm'⟩ := v
  have hdigit : ∀ a < 10, ∀ b < 10, Nat.digitChar a = Nat.digitChar b → a = b := by decide
  simp only [Time.text] at h
  rw [WString.ofNat_digit (by omega), WString.ofNat_digit (by omega), WString.ofNat_digit (by omega),
    WString.ofNat_digit (by omega), WString.ofNat_digit (by omega), WString.ofNat_digit (by omega),
    WString.ofNat_digit (by omega), WString.ofNat_digit (by omega)] at h
  simp only [List.cons_append, List.nil_append, List.cons.injEq, true_and, and_true] at h
  obtain ⟨ha, hb, hc, hd⟩ := h
  have ha' := hdigit _ (by omega) _ (by omega) ha
  have hb' := hdigit _ (by omega) _ (by omega) hb
  have hc' := hdigit _ (by omega) _ (by omega) hc
  have hd' := hdigit _ (by omega) _ (by omega) hd
  rw [Time.mk.injEq]
  omega

theorem mixed_eq_timeAt_iff {hourAt minuteAt y : Nat} :
    mixed hourAt minuteAt = timeAt y ↔
      hourAt / 3600 % 24 = y / 3600 % 24 ∧ minuteAt / 60 % 60 = y / 60 % 60 := by
  rw [mixed, timeAt, Time.mk.injEq]

/-- **The text is the time of a moment of the reading**, except where an hour
ends between the minutes and the hours.  The reading may take up to 59 minutes. -/
theorem gettime_moment_iff {r : Nat → Registers} {x : Nat → Nat} (h : ∀ i, Shows (r i) (x i))
    (hmono : Monotone x) (hquick : x 6 ≤ x 0 + 3540) (memory : Nat → Char) (t : Variables) :
    (∃ y, x 0 ≤ y ∧ y ≤ x 6 ∧ (gettime "H:i".toList (reads r) memory t).2 = (timeAt y).text) ↔
      x 1 / 3600 = x 2 / 3600 := by
  have h01 : x 0 ≤ x 1 := hmono (by decide)
  have h12 : x 1 ≤ x 2 := hmono (by decide)
  have h26 : x 2 ≤ x 6 := hmono (by decide)
  rw [gettime_mixed h]
  constructor
  · rintro ⟨y, hlo, hhi, htext⟩
    obtain ⟨hhour, hminute⟩ := mixed_eq_timeAt_iff.mp (text_inj htext)
    omega
  · intro hhour
    refine ⟨x 1, h01, h12.trans h26, ?_⟩
    congr 1
    rw [mixed_eq_timeAt_iff, hhour]
    exact ⟨rfl, rfl⟩

/-- Eleven o'clock, reached between the two. -/
theorem gettime_moment_iff_eleven : ¬ ∃ y, 39599 ≤ y ∧ y ≤ 39600 ∧
      (gettime "H:i".toList (reads fun i => registersAt (if i < 2 then 39599 else 39600))
        (fun _ => 'x') .initial).2 = (timeAt y).text := by
  have hmono : Monotone fun i : Nat => if i < 2 then 39599 else 39600 := by
    intro i j hij
    dsimp only
    split_ifs <;> omega
  intro hmoment
  have hhour : 39599 / 3600 ≠ 39600 / 3600 := by decide
  exact hhour ((gettime_moment_iff (x := fun i => if i < 2 then 39599 else 39600)
    (fun i => shows_registersAt _) hmono (by decide) (fun _ => 'x')
    .initial).mp hmoment)

/-! ### The valves -/

/-- The events of a run up to a reading of the clock, some more without another
reading, and the tick of the automatic mode. -/
def uptoTick (es : List Event) (text : WString) (fs : List Event) : List Event :=
  es ++ .clock text :: fs

/-- The time the schedules are compared with is that of the last reading. -/
theorem actualTime_uptoTick (es : List Event) (text : WString) {fs : List Event}
    (hfs : ∀ e ∈ fs, ∀ gettime, e ≠ .clock gettime) :
    (after (uptoTick es text fs)).actualTime = text := by
  rw [after, uptoTick, run_append, run_cons, Timeline.run_actualTime _ _ hfs]
  rfl

/-- The flag of all beds is not set without theirs. -/
theorem globalPoliv_of_flags (es : List Event) (h : ∀ j, (after es).timeSec j = false) :
    (after es).globalPoliv = false := by
  have hr := Valve.after_refines es
  refine (hr.flags_of_not_manual (fun k hm => ?_)).2
  have hflag := (hr.timeSec_iff k).mpr hm
  rw [h k] at hflag
  exact absurd hflag (by decide)

/-- **From the registers to the valves**: without a manual flag a bed is watered
after a tick exactly if its schedule is the hour and the minute that were read,
though they may be of different moments.  A schedule that is no time waters
nothing. -/
theorem valve_iff_registers {r : Nat → Registers} {x : Nat → Nat} (h : ∀ i, Shows (r i) (x i))
    (memory : Nat → Char) (t : Variables) (es : List Event) {fs : List Event}
    (hfs : ∀ e ∈ fs, ∀ gettime, e ≠ .clock gettime) {k : Bed}
    (hflags : ∀ j, (after (uptoTick es (gettime "H:i".toList (reads r) memory t).2 fs)).timeSec j =
      false) :
    (after (uptoTick es (gettime "H:i".toList (reads r) memory t).2 fs ++ [.poliv])).valve k =
        .high ↔
      ∃ u : Time, (after (uptoTick es (gettime "H:i".toList (reads r) memory t).2
          fs)).timeSetupSettings k = u.text ∧
        u.hour = x 2 / 3600 % 24 ∧ u.minute = x 1 / 60 % 60 := by
  have hglobal := globalPoliv_of_flags _ hflags
  rw [after, run_append, ← after, run_cons, run_nil, Valve.tick_writes hglobal hflags,
    actualTime_uptoTick es _ hfs, gettime_mixed h]
  constructor
  · intro htext
    exact ⟨mixed (x 2) (x 1), htext, rfl, rfl⟩
  · rintro ⟨⟨hour, minute, hh, hm⟩, htext, hhour, hminute⟩
    have hmixed : (⟨hour, minute, hh, hm⟩ : Time) = mixed (x 2) (x 1) := by
      rw [mixed, Time.mk.injEq]
      exact ⟨hhour, hminute⟩
    rw [htext, hmixed]

/-- The third bed at eleven o'clock. -/
theorem valve_iff_registers_eleven :
    (after (uptoTick [] (gettime "H:i".toList (reads fun _ => registersAt 39600) (fun _ => 'x')
      .initial).2 [.menu] ++ [.poliv])).valve .bed3 = .high := by
  refine (valve_iff_registers (x := fun _ => 39600) (k := .bed3)
    (fun _ => shows_registersAt 39600) (fun _ => 'x') .initial []
    (show ∀ e ∈ [Event.menu], ∀ gettime, e ≠ .clock gettime by simp) ?_).mpr
      ⟨⟨11, 0, by decide, by decide⟩, rfl, rfl, rfl⟩
  intro j
  cases j <;> rfl

end Rtc

end Polivunator
