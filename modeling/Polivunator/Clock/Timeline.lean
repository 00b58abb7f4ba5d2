import Polivunator.Library.Sampling
import Polivunator.Sketch.KeyFrame
import Polivunator.Sketch.Loop

/-!
# Runs of `loop()` in time

A `Timeline` is an endless run of `loop()` on a board whose clocks are right:
it says when each pass begins, in milliseconds since power on and without the
wrap of `millis()`, and when the pass asks `ReadPoliv.Now()`, in microseconds.
Its fields prove that `millis()`, `micros()` and the RTC answer accordingly and
that passes begin between one and a thousand milliseconds apart.

* `actualTime_eq`: what `g_sActualTime` holds when `ReadPoliv` is asked is what
  the RTC showed in the last pass that has read it (`lastRead`).
* `exists_tick`: `ReadPoliv` ticks at least once in any two seconds of passes,
  whenever it last did.
-/

namespace Polivunator

open Labelled

/-- A run of `loop()` with the times of its passes. -/
structure Timeline where
  /-- When `setup()` is done, in milliseconds. -/
  setupAt : Nat
  /-- What the RTC shows, by the millisecond. -/
  rtc : Nat → WString
  /-- When a pass begins, in milliseconds. -/
  begins : Nat → Nat
  /-- When a pass asks `ReadPoliv.Now()`, in microseconds. -/
  asks : Nat → Nat
  pass : Nat → Pass
  millis_eq : ∀ n, (pass n).millis = UInt32.ofNat (begins n)
  gettime_eq : ∀ n, (pass n).gettime = rtc (begins n)
  micros_eq : ∀ n, (pass n).microsPoliv = UInt32.ofNat (asks n)
  setup_le : setupAt ≤ begins 0
  spaced : ∀ n, begins n + 1 ≤ begins (n + 1) ∧ begins (n + 1) ≤ begins n + 1000
  within : ∀ n, begins n ≤ asks n / 1000 ∧ asks n / 1000 ≤ begins (n + 1)

namespace Timeline

variable (T : Timeline)

/-- The program when a pass begins. -/
def sketch : Nat → Sketch
  | 0 => start
  | n + 1 => loop (T.pass n) (sketch n)

/-- Whether a pass runs the block behind `ReadPoliv.Now()`. -/
def ticks (n : Nat) : Bool := ((T.sketch n).readPoliv.now (T.pass n).microsPoliv).2

/-- The globals when a pass asks `ReadPoliv.Now()`. -/
def beforeTick (n : Nat) : State :=
  run step (T.sketch n).state ((T.pass n).round (T.sketch n)).upToPoliv

/-- The last pass up to this one that has read the RTC. -/
def lastRead (n : Nat) : Option Nat := Sampling.last (fun m => clockDue (T.pass m).millis) n

/-! ### States -/

theorem sketch_state (n : Nat) :
    (T.sketch (n + 1)).state =
      if T.ticks n then step (T.beforeTick n) .poliv else T.beforeTick n := by
  have hpoliv : ((T.pass n).round (T.sketch n)).poliv = T.ticks n := rfl
  rw [sketch, loop_state, Round.events, beforeTick, run_append, run_poliv, hpoliv]
  rfl

/-- What a pass does is what some events do. -/
theorem exists_events (n : Nat) :
    (∃ es, (T.sketch n).state = after es) ∧ ∃ es, T.beforeTick n = after es := by
  have hpre : ∀ n, (∃ es, (T.sketch n).state = after es) → ∃ es, T.beforeTick n = after es := by
    rintro n ⟨es, hes⟩
    refine ⟨es ++ ((T.pass n).round (T.sketch n)).upToPoliv, ?_⟩
    rw [beforeTick, hes, after, after, run_append]
  have hstate : ∃ es, (T.sketch n).state = after es := by
    induction n with
    | zero => exact ⟨[], rfl⟩
    | succ n ih =>
      obtain ⟨es, hes⟩ := ih
      refine ⟨es ++ ((T.pass n).round (T.sketch n)).events, ?_⟩
      rw [sketch, loop_state, hes, after, after, run_append]
  exact ⟨hstate, hpre n hstate⟩

/-! ### What the clock shows -/

theorem actualTime_unkeyed : Unkeyed State.actualTime :=
  ⟨⟨fun _ _ => rfl, fun _ _ => rfl, fun _ _ => rfl, fun _ _ => rfl, fun _ _ _ _ _ => rfl⟩,
    fun _ _ => rfl⟩

/-- Only reading the RTC writes `g_sActualTime`. -/
theorem step_actualTime (s : State) (e : Event) (h : ∀ gettime, e ≠ .clock gettime) :
    (step s e).actualTime = s.actualTime := by
  have htyping : Untyped State.actualTime := fun _ _ _ _ _ _ => rfl
  cases e with
  | clock gettime => exact absurd rfl (h gettime)
  | ir value => exact actualTime_unkeyed.key_of_untyped htyping (some value) s
  | menu => rw [step, menu_eq]
  | sms str => exact actualTime_unkeyed.receivesms htyping str s
  | temperature readHumidity readTemperature => rw [step, readTemperatureBlock_eq]
  | poliv => rw [step, readPolivBlock_eq]

theorem run_actualTime (s : State) (es : List Event) (h : ∀ e ∈ es, ∀ gettime, e ≠ .clock gettime) :
    (run step s es).actualTime = s.actualTime := by
  induction es generalizing s with
  | nil => rfl
  | cons e es ih =>
    rw [run_cons, ih _ (fun x hx => h x (List.mem_cons_of_mem e hx)),
      step_actualTime s e (h e (List.mem_cons_self ..))]

/-- One pass. -/
theorem beforeTick_actualTime (n : Nat) :
    (T.beforeTick n).actualTime =
      if clockDue (T.pass n).millis then T.rtc (T.begins n) else (T.sketch n).state.actualTime := by
  have hrest : ∀ (ir : Option Nat) (sms : List WString) (temperature : Option (Int × Int)),
      ∀ e ∈ (ir.map Event.ir).toList ++ [.menu] ++ (sms.map Event.sms ++
        (temperature.map (fun t => Event.temperature t.1 t.2)).toList),
      ∀ gettime, e ≠ .clock gettime := by
    intro ir sms temperature e he gettime
    simp only [List.mem_append, List.mem_map, Option.mem_toList, Option.map_eq_some_iff,
      List.mem_singleton] at he
    rcases he with (⟨x, -, rfl⟩ | rfl) | ⟨x, -, rfl⟩ | ⟨x, -, rfl⟩ <;> simp
  rw [beforeTick, Round.upToPoliv, Round.upToMenu, Round.middle, List.append_assoc, List.append_assoc,
    run_append, ← List.append_assoc, run_actualTime _ _ (hrest _ _ _)]
  simp only [Pass.round]
  split_ifs
  · exact T.gettime_eq n
  · rfl

/-- **What the sketch takes for the time** is what the RTC showed when it was
last read, and nothing before that. -/
theorem actualTime_eq (n : Nat) :
    (T.beforeTick n).actualTime = (T.lastRead n).elim [] (fun m => T.rtc (T.begins m)) := by
  have hzero : (T.beforeTick 0).actualTime =
      if clockDue (T.pass 0).millis then T.rtc (T.begins 0) else [] := T.beforeTick_actualTime 0
  have hsucc : ∀ n, (T.beforeTick (n + 1)).actualTime =
      if clockDue (T.pass (n + 1)).millis then T.rtc (T.begins (n + 1))
      else (T.beforeTick n).actualTime := by
    intro n
    have hkeep : (T.sketch (n + 1)).state.actualTime = (T.beforeTick n).actualTime := by
      rw [sketch_state]
      split_ifs
      · exact step_actualTime _ _ (fun gettime => by simp)
      · rfl
    rw [beforeTick_actualTime, hkeep]
  exact Sampling.register_eq [] (fun m => T.rtc (T.begins m)) (fun m => (T.beforeTick m).actualTime)
    hzero hsucc n

/-! ### When passes begin -/

theorem begins_mono {m n : Nat} (h : m ≤ n) : T.begins m ≤ T.begins n := by
  induction n, h using Nat.le_induction with
  | base => exact Nat.le_refl _
  | succ n _ ih =>
    have hnext := (T.spaced n).1
    omega

/-- Every moment of the run is followed by the beginning of a pass. -/
theorem exists_begins {x : Nat} (h : T.begins 0 ≤ x) :
    ∃ n, x ≤ T.begins n ∧ T.begins n ≤ x + 1000 := by
  induction x, h using Nat.le_induction with
  | base => exact ⟨0, Nat.le_refl _, Nat.le_add_right _ _⟩
  | succ x _ ih =>
    obtain ⟨n, hlo, hhi⟩ := ih
    by_cases hx : x + 1 ≤ T.begins n
    · exact ⟨n, hx, by omega⟩
    · have hnext := T.spaced n
      exact ⟨n + 1, by omega, by omega⟩

/-! ### When `ReadPoliv` ticks -/

theorem readPoliv_period (n : Nat) :
    (T.sketch n).readPoliv.state = .start ∧ (T.sketch n).readPoliv.smMicros = 1000000 := by
  induction n with
  | zero => exact ⟨rfl, rfl⟩
  | succ n ih =>
    have hnow : ∀ (d : SmartDelay) (mcs : UInt32),
        (d.now mcs).1.state = d.state ∧ (d.now mcs).1.smMicros = d.smMicros := by
      intro d mcs
      unfold SmartDelay.now
      split_ifs <;> exact ⟨rfl, rfl⟩
    obtain ⟨hstate, hperiod⟩ := hnow (T.sketch n).readPoliv (T.pass n).microsPoliv
    exact ⟨hstate.trans ih.1, hperiod.trans ih.2⟩

/-- As long as it does not tick the timer stays as it is. -/
theorem readPoliv_of_silent {i j : Nat} (hij : i ≤ j)
    (h : ∀ m, i ≤ m → m < j → T.ticks m = false) :
    (T.sketch j).readPoliv = (T.sketch i).readPoliv := by
  induction j, hij using Nat.le_induction with
  | base => rfl
  | succ j hij ih =>
    have hsame := ih (fun m hi hj => h m hi (by omega))
    have hsilent := h j hij (Nat.lt_succ_self j)
    rw [← hsame]
    exact (SmartDelay.now_of_false (T.readPoliv_period j).1 hsilent).1

/-- **Two passes a second apart have a tick between them.** -/
theorem exists_tick {i j : Nat} (hij : i ≤ j) (hlo : T.asks i + 1000000 ≤ T.asks j)
    (hhi : T.asks j + 1000000 ≤ T.asks i + UInt32.size) :
    ∃ m, i ≤ m ∧ m ≤ j ∧ T.ticks m = true := by
  by_contra hno
  have hsilent : ∀ m, i ≤ m → m ≤ j → T.ticks m = false := by
    intro m hi hj
    rw [← Bool.not_eq_true]
    exact fun hm => hno ⟨m, hi, hj, hm⟩
  have hsame := T.readPoliv_of_silent hij (fun m hi hj => hsilent m hi (by omega))
  obtain ⟨hstart, hperiod⟩ := T.readPoliv_period i
  have hi : ((T.sketch i).readPoliv.now (UInt32.ofNat (T.asks i))).2 = false := by
    rw [← T.micros_eq]
    exact hsilent i (Nat.le_refl i) hij
  have hj : ((T.sketch i).readPoliv.now (UInt32.ofNat (T.asks j))).2 = true := by
    refine SmartDelay.now_of_gap hstart hi ?_ ?_
    · rw [hperiod]
      exact hlo
    · rw [hperiod]
      exact hhi
  rw [← hsame, ← T.micros_eq, ← ticks, hsilent j hij (Nat.le_refl j)] at hj
  exact absurd hj (by decide)

end Timeline

end Polivunator
