import Polivunator.Sketch.State
import Mathlib.Tactic.SplitIfs

/-!
# Typing a schedule

`SetTime(key)` takes one digit on the page `MENU_SET_PARAMETERS`.
`setTimeReturns` is its four checks, in the order of the source; a digit that
passes them is appended to the text, with a colon before the third, and the
fourth digit stores the text as the schedule of the bed whose page is in
`g_iSetParameters`.
-/

namespace Polivunator

open WString

/-- Whether one of the checks returns. -/
def setTimeReturns (key : Nat) (s : State) : Bool :=
  if s.stepSetTime = 0 ∧ key > 2 then true
  else if s.stepSetTime = 1 then
    decide (toInt (substring (s.timeSetupSettingsSetup ++ ofNat key) 0 2) ≥ 24)
  else if s.stepSetTime = 2 ∧ key > 5 then true
  else if s.stepSetTime = 3 then
    decide (toInt (substring (s.timeSetupSettingsSetup ++ ":".toList ++ ofNat key) 3 5) ≥ 60)
  else false

/-- Append the digit and count it. -/
def setTimeAppend (key : Nat) (s : State) : State :=
  { s with
    timeSetupSettingsSetup :=
      if s.stepSetTime ≠ 2 then s.timeSetupSettingsSetup ++ ofNat key
      else s.timeSetupSettingsSetup ++ (":".toList ++ ofNat key)
    stepSetTime := s.stepSetTime + 1 }

/-- The `switch` on `g_iSetParameters` that stores the text. -/
def setTimeStore (s : State) : State :=
  match s.setParameters with
  | .menuPoliv1 => { s with timeSetupSettings1 := s.timeSetupSettingsSetup }
  | .menuPoliv2 => { s with timeSetupSettings2 := s.timeSetupSettingsSetup }
  | .menuPoliv3 => { s with timeSetupSettings3 := s.timeSetupSettingsSetup }
  | _ => s

/-- `SetTime(key)`. -/
def setTime (key : Nat) (s : State) : State :=
  if setTimeReturns key s then s
  else
    let s := setTimeAppend key s
    if s.stepSetTime > 3 then setTimeStore { s with stepSetTime := 0 } else s

/-! ### What a digit changes -/

theorem setTimeStore_eq (s : State) :
    setTimeStore s =
      { s with
        timeSetupSettings1 := (setTimeStore s).timeSetupSettings1
        timeSetupSettings2 := (setTimeStore s).timeSetupSettings2
        timeSetupSettings3 := (setTimeStore s).timeSetupSettings3 } := by
  unfold setTimeStore
  split <;> rfl

/-- A digit writes nothing but the text, the step and schedules. -/
theorem setTime_eq (key : Nat) (s : State) :
    setTime key s =
      { s with
        timeSetupSettingsSetup := (setTime key s).timeSetupSettingsSetup
        stepSetTime := (setTime key s).stepSetTime
        timeSetupSettings1 := (setTime key s).timeSetupSettings1
        timeSetupSettings2 := (setTime key s).timeSetupSettings2
        timeSetupSettings3 := (setTime key s).timeSetupSettings3 } := by
  unfold setTime
  split_ifs with h
  · rfl
  · simp only
    split_ifs
    · rw [setTimeStore_eq]
      rfl
    · rfl

@[simp] theorem setTime_valves (key : Nat) (s : State) : (setTime key s).valves = s.valves := by
  rw [setTime_eq]
  rfl

@[simp] theorem setTime_menuLcd (key : Nat) (s : State) : (setTime key s).menuLcd = s.menuLcd := by
  rw [setTime_eq]

/-- **The store goes to the bed whose page is in `g_iSetParameters`.** -/
theorem setTimeStore_of_menuPoliv {s : State} {k : Bed} (h : s.setParameters = k.menuPoliv) :
    setTimeStore s = s.setTimeSetupSettings k s.timeSetupSettingsSetup := by
  cases k <;> simp [setTimeStore, State.setTimeSetupSettings, h, Bed.menuPoliv]

end Polivunator
