import Polivunator.Sketch.State
import Mathlib.Tactic.SplitIfs

/-!
# Incoming messages

`getValue` cuts a field out of a text, `receivesms` is what the modem driver
calls with the text of a message: `ON` and `OFF` switch every bed by hand, and
`k HH:MM` with `k` one of `0`, `1`, `2` sets a schedule.

The texts are those of `SmsWork.work_texts`, without a NUL, so comparing them as
C strings is comparing their characters.

The switching is the one the buttons `Z` and `R` do, so it is `allOn` and
`allOff` here and in `Key.lean`.
-/

namespace Polivunator

open WString

/-! ### Cutting fields -/

/-- The locals of `getValue`: `found` and the two ends in `strIndex`. -/
structure Cut where
  found : Nat
  left : Int
  right : Int

/-- The loop of `getValue` with `n` iterations left, the next one at `i`. -/
def getValueLoop (data : WString) (separator : Char) (index : Nat) : Nat → Nat → Cut → Cut
  | 0, _, c => c
  | n + 1, i, c =>
      if c.found ≤ index then
        if data.getD i nul = separator ∨ n = 0 then
          getValueLoop data separator index n (i + 1)
            ⟨c.found + 1, c.right + 1, if n = 0 then (i : Int) + 1 else i⟩
        else getValueLoop data separator index n (i + 1) c
      else c

/-- `getValue(data, separator, index)`.  The last character is at `maxIndex`
when no iteration is left after it. -/
def getValue (data : WString) (separator : Char) (index : Nat) : WString :=
  let c := getValueLoop data separator index data.length 0 ⟨0, 0, -1⟩
  if c.found > index then substring data c.left.toNat c.right.toNat else []

/-! ### Switching every bed by hand -/

/-- The pins and flags of the button `Z` and of the message `ON`. -/
def allOn (s : State) : State :=
  let s := digitalWrite 7 .high (digitalWrite 6 .high (digitalWrite 5 .high s))
  { s with timeSec1 := true, timeSec2 := true, timeSec3 := true, globalPoliv := true }

/-- The pins and flags of the button `R` and of the message `OFF`. -/
def allOff (s : State) : State :=
  let s := digitalWrite 7 .low (digitalWrite 6 .low (digitalWrite 5 .low s))
  { s with timeSec1 := false, timeSec2 := false, timeSec3 := false, globalPoliv := false }

@[simp] theorem allOn_valves (s : State) :
    (allOn s).valves = (fun _ => .high, fun _ => true, true) := by
  refine Prod.ext ?_ (Prod.ext ?_ rfl)
  · funext k; cases k <;> rfl
  · funext k; cases k <;> rfl

@[simp] theorem allOff_valves (s : State) :
    (allOff s).valves = (fun _ => .low, fun _ => false, false) := by
  refine Prod.ext ?_ (Prod.ext ?_ rfl)
  · funext k; cases k <;> rfl
  · funext k; cases k <;> rfl

@[simp] theorem allOn_entry (s : State) : (allOn s).entry = s.entry := by
  simp only [State.entry, allOn, digitalWrite]

@[simp] theorem allOff_entry (s : State) : (allOff s).entry = s.entry := by
  simp only [State.entry, allOff, digitalWrite]

@[simp] theorem allOn_schedules (s : State) :
    (allOn s).timeSetupSettings = s.timeSetupSettings := by
  funext k; cases k <;> simp only [State.timeSetupSettings, allOn, digitalWrite]

@[simp] theorem allOff_schedules (s : State) :
    (allOff s).timeSetupSettings = s.timeSetupSettings := by
  funext k; cases k <;> simp only [State.timeSetupSettings, allOff, digitalWrite]

/-! ### Messages -/

/-- The part of `receivesms` that switches. -/
def receivesmsSwitch (str : WString) (s : State) : State :=
  if str = "ON".toList then { allOn s with menuReftach := true }
  else if str = "OFF".toList then { allOff s with menuReftach := true }
  else s

/-- The part of `receivesms` that schedules.  The first branch pads the local
`str`, which nothing reads any more. -/
def receivesmsSchedule (str : WString) (s : State) : State :=
  if (getValue str ' ' 1).length = 4 then s
  else if getValue str ' ' 0 = "0".toList then
    { s with timeSetupSettings1 := getValue str ' ' 1 }
  else if getValue str ' ' 0 = "1".toList then
    { s with timeSetupSettings2 := getValue str ' ' 1 }
  else if getValue str ' ' 0 = "2".toList then
    { s with timeSetupSettings3 := getValue str ' ' 1 }
  else s

/-- `receivesms(str)`. -/
def receivesms (str : WString) (s : State) : State :=
  receivesmsSchedule str (receivesmsSwitch str s)

/-! ### What a message changes -/

/-- Scheduling writes nothing but schedules. -/
theorem receivesmsSchedule_eq (str : WString) (s : State) :
    receivesmsSchedule str s =
      { s with
        timeSetupSettings1 := (receivesmsSchedule str s).timeSetupSettings1
        timeSetupSettings2 := (receivesmsSchedule str s).timeSetupSettings2
        timeSetupSettings3 := (receivesmsSchedule str s).timeSetupSettings3 } := by
  unfold receivesmsSchedule
  split_ifs <;> rfl

theorem receivesmsSwitch_entry (str : WString) (s : State) :
    (receivesmsSwitch str s).entry = s.entry := by
  unfold receivesmsSwitch
  split_ifs
  · rw [← allOn_entry s]; rfl
  · rw [← allOff_entry s]; rfl
  · rfl

@[simp] theorem receivesms_entry (str : WString) (s : State) :
    (receivesms str s).entry = s.entry := by
  rw [receivesms, receivesmsSchedule_eq, ← receivesmsSwitch_entry str s]
  rfl

/-- **A message switches like a button.**  What is left of the text after `ON`
and `OFF` never reaches a valve. -/
theorem receivesms_valves (str : WString) (s : State) :
    (receivesms str s).valves =
      if str = "ON".toList then (allOn s).valves
      else if str = "OFF".toList then (allOff s).valves
      else s.valves := by
  rw [receivesms, receivesmsSchedule_eq]
  show (receivesmsSwitch str s).valves = _
  unfold receivesmsSwitch
  split_ifs <;> rfl

end Polivunator
