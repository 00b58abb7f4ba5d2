import Polivunator.Clock.Timeline
import Polivunator.Keypad.Entry
import Polivunator.Valve.Refine

/-!
# How old the time is that schedules are compared with

`loop()` reads the RTC in a pass that begins at a multiple of a thousand
milliseconds exactly, and in no other.  A pass takes longer than a millisecond,
so whole seconds may be stepped over, any number of them in a row:
`clock_stale` is a run whose passes begin at odd milliseconds and that never
reads the RTC at all.

`Fresh` says the time is at most two seconds old when `ReadPoliv` ticks, and
`Seen` that no scheduled minute passes without a tick that opens the valve.
`fresh_iff` says both hold exactly when one of the passes of the two seconds
before each tick begins at such a multiple.  `Seen` follows from `Fresh` since
a minute has a tick later than two seconds after its start.
-/

namespace Polivunator.Timeline

open Labelled

variable (T : Timeline)

/-- From two seconds after `setup()` on, the time compared with the schedules
was read at most two seconds ago. -/
def Fresh : Prop :=
  ∀ n, T.ticks n = true → T.setupAt + 2000 ≤ T.asks n / 1000 →
    ∃ m, T.lastRead n = some m ∧ (T.beforeTick n).actualTime = T.rtc (T.begins m) ∧
      T.asks n / 1000 ≤ T.begins m + 2000

/-- No minute of the RTC that a bed is scheduled for passes without a tick that
finds it due and opens its valve, while no manual flag is set. -/
def Seen : Prop :=
  ∀ (a : Nat) (time : WString) (k : Bed), T.begins 0 ≤ a →
    (∀ τ, a ≤ τ → τ < a + 60000 → T.rtc τ = time) →
    (∀ n, T.ticks n = true → a ≤ T.asks n / 1000 → T.asks n / 1000 < a + 60000 →
      (T.beforeTick n).timeSetupSettings k = time ∧ ∀ j, (T.beforeTick n).timeSec j = false) →
    ∃ n, T.ticks n = true ∧ a ≤ T.asks n / 1000 ∧ T.asks n / 1000 < a + 60000 ∧
      (T.beforeTick n).timeSetupSettings k = (T.beforeTick n).actualTime ∧
      (T.sketch (n + 1)).state.valve k = .high

/-- Before each tick, one of the passes of the last two seconds begins at a
multiple of a thousand milliseconds. -/
def Hits : Prop :=
  ∀ n, T.ticks n = true → T.setupAt + 2000 ≤ T.asks n / 1000 →
    ∃ m, m ≤ n ∧ T.begins m % UInt32.size % 1000 = 0 ∧ T.asks n / 1000 ≤ T.begins m + 2000

/-! ### The last reading -/

theorem clockDue_iff (n : Nat) :
    clockDue (T.pass n).millis = true ↔ T.begins n % UInt32.size % 1000 = 0 := by
  have hmod : (T.pass n).millis % 1000 = 0 ↔ ((T.pass n).millis % 1000).toNat = 0 := by
    rw [← UInt32.toNat_inj]
    rfl
  rw [clockDue, decide_eq_true_iff, hmod, UInt32.toNat_mod, T.millis_eq, UInt32.toNat_ofNat']
  rfl

theorem fresh_iff_hits : T.Fresh ↔ T.Hits := by
  constructor
  · intro h n htick hlate
    obtain ⟨m, hread, -, hage⟩ := h n htick hlate
    obtain ⟨hm, hdue⟩ := Sampling.last_eq_some hread
    exact ⟨m, hm, (T.clockDue_iff m).mp hdue, hage⟩
  · intro h n htick hlate
    obtain ⟨m, hm, hmult, hage⟩ := h n htick hlate
    have hdue := (T.clockDue_iff m).mpr hmult
    obtain ⟨i, hread, hle⟩ : ∃ i, T.lastRead n = some i ∧ m ≤ i := Sampling.exists_last hm hdue
    have hlater := T.begins_mono hle
    refine ⟨i, hread, ?_, by omega⟩
    rw [T.actualTime_eq, hread]
    rfl

/-! ### A minute -/

/-- No time goes by without a tick: there is one in every ten seconds. -/
theorem exists_tick_after {x : Nat} (h : T.begins 0 ≤ x) :
    ∃ n, T.ticks n = true ∧ x ≤ T.asks n / 1000 ∧ T.asks n / 1000 < x + 10000 := by
  obtain ⟨i, hilo, hihi⟩ := T.exists_begins h
  obtain ⟨j, hjlo, hjhi⟩ := T.exists_begins (show T.begins 0 ≤ T.begins i + 3000 by omega)
  have hij : i ≤ j := by
    by_contra hlt
    have hmono := T.begins_mono (show j ≤ i by omega)
    omega
  have hi := T.within i
  have hj := T.within j
  have hinext := T.spaced i
  have hjnext := T.spaced j
  have hspan : T.asks j + 1000000 ≤ T.asks i + UInt32.size := by
    rw [UInt32.size]
    omega
  obtain ⟨m, him, hmj, htick⟩ := T.exists_tick hij (by omega) hspan
  have hm := T.within m
  have hlo := T.begins_mono him
  have hhi := T.begins_mono (show m + 1 ≤ j + 1 by omega)
  exact ⟨m, htick, by omega, by omega⟩

/-- The flag of all beds is not set without theirs. -/
theorem globalPoliv_of_timeSec (n : Nat) (h : ∀ j, (T.beforeTick n).timeSec j = false) :
    (T.beforeTick n).globalPoliv = false := by
  obtain ⟨-, es, hes⟩ := T.exists_events n
  rw [hes] at h ⊢
  have hr := Valve.after_refines es
  refine (hr.flags_of_not_manual (fun k hm => ?_)).2
  have hflag := (hr.timeSec_iff k).mpr hm
  rw [h k] at hflag
  exact absurd hflag (by decide)

theorem seen_of_fresh (h : T.Fresh) : T.Seen := by
  intro a time k ha hrtc hidle
  obtain ⟨n, htick, hlo, hhi⟩ := T.exists_tick_after (show T.begins 0 ≤ a + 2000 by omega)
  have hsetup := T.setup_le
  obtain ⟨m, hread, hnow, hage⟩ := h n htick (by omega)
  obtain ⟨hm, -⟩ := Sampling.last_eq_some hread
  have hpast := T.begins_mono hm
  have hwithin := T.within n
  have htime : (T.beforeTick n).actualTime = time := by
    rw [hnow]
    exact hrtc _ (by omega) (by omega)
  obtain ⟨hschedule, hflags⟩ := hidle n htick (by omega) (by omega)
  have hvalves := readPolivBlock_valves_of_auto (T.globalPoliv_of_timeSec n hflags) hflags
  refine ⟨n, htick, by omega, by omega, hschedule.trans htime.symm, ?_⟩
  rw [T.sketch_state, if_pos htick]
  refine (congrFun (congrArg Prod.fst hvalves) k).trans ?_
  show autoLevel _ _ = Level.high
  rw [autoLevel, if_pos (hschedule.trans htime.symm)]

/-- **The time is fresh and no scheduled minute is missed exactly when the
passes hit the whole seconds.** -/
theorem fresh_iff : (T.Fresh ∧ T.Seen) ↔ T.Hits := by
  rw [← fresh_iff_hits]
  exact ⟨fun h => h.1, fun h => ⟨h, T.seen_of_fresh h⟩⟩

/-! ### Odd milliseconds -/

/-- An RTC set to midnight at power on. -/
def midnight (τ : Nat) : WString :=
  Time.text ⟨τ / 3600000 % 24, τ / 60000 % 60, Nat.mod_lt _ (by decide), Nat.mod_lt _ (by decide)⟩

/-- Passes of two milliseconds, the first at one. -/
def oddPasses : Timeline where
  setupAt := 0
  rtc := midnight
  begins n := 2 * n + 1
  asks n := 1000 * (2 * n + 1)
  pass n :=
    { millis := UInt32.ofNat (2 * n + 1)
      gettime := midnight (2 * n + 1)
      results := none
      sim := none
      usb := none
      microsTemperature := UInt32.ofNat (1000 * (2 * n + 1))
      readHumidity := 0
      readTemperature := 0
      microsPoliv := UInt32.ofNat (1000 * (2 * n + 1)) }
  millis_eq _ := rfl
  gettime_eq _ := rfl
  micros_eq _ := rfl
  setup_le := Nat.zero_le _
  spaced n := by omega
  within n := by omega

/-- The RTC is never read, whatever it shows. -/
theorem clock_stale : ¬ ∀ T : Timeline, T.Fresh ∧ T.Seen := by
  intro h
  obtain ⟨n, htick, hlo, -⟩ := oddPasses.exists_tick_after (show 1 ≤ 2000 by omega)
  obtain ⟨m, hread, -⟩ := (h oddPasses).1 n htick hlo
  obtain ⟨-, hdue⟩ := Sampling.last_eq_some hread
  have hmult : (2 * m + 1) % 4294967296 % 1000 = 0 := (oddPasses.clockDue_iff m).mp hdue
  omega

end Polivunator.Timeline
