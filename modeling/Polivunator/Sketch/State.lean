import Polivunator.Arduino.WString
import Mathlib.Logic.Function.Basic
import Mathlib.Data.Fintype.Basic

/-!
# The globals of the sketch

Everything `Polivun_v2.0.ino` keeps between two passes of `loop`, under its own
names without the `g_` and the type letter, and the two devices it only writes
to: the output pins and the display.  The display is the list of the calls made
to it, in order, so that what it shows is a function of that list.

`Bed` numbers the three beds.  The sketch writes them out three times, as
`g_iTimeSec1` to `g_iTimeSec3` and so on; the accessors here read the copy of a
bed, so that what is said about one bed can be said once.
-/

namespace Polivunator

/-! ### Buttons of the remote control -/

def keyOk : Nat := 16726215
def keyLeft : Nat := 16716015
def keyRight : Nat := 16734885
def keyUp : Nat := 16718055
def keyDown : Nat := 16730805
def key0 : Nat := 16750695
def keyZ : Nat := 16738455
def keyR : Nat := 16756815
def key1 : Nat := 16753245
def key2 : Nat := 16736925
def key3 : Nat := 16769565
def key4 : Nat := 16720605
def key5 : Nat := 16712445
def key6 : Nat := 16761405
def key7 : Nat := 16769055
def key8 : Nat := 16754775
def key9 : Nat := 16748655

/-! ### Pages, beds and levels -/

/-- `enum Page`. -/
inductive Page
  | menuHome
  | menuSetup
  | menuLcdBriglight
  | menuPoliv1
  | menuPoliv2
  | menuPoliv3
  | menuInfoPoliv1
  | menuInfoPoliv2
  | menuInfoPoliv3
  | menuSetParameters
  deriving DecidableEq

inductive Level
  | low
  | high
  deriving DecidableEq

inductive Bed
  | bed1
  | bed2
  | bed3
  deriving DecidableEq

instance : Fintype Bed := ⟨{.bed1, .bed2, .bed3}, fun k => by cases k <;> decide⟩

instance : Nonempty Bed := ⟨.bed1⟩

namespace Bed

/-- The pin of the bed's valve. -/
def pin : Bed → Nat
  | bed1 => 5
  | bed2 => 6
  | bed3 => 7

/-- The page of the bed in the settings. -/
def menuPoliv : Bed → Page
  | bed1 => .menuPoliv1
  | bed2 => .menuPoliv2
  | bed3 => .menuPoliv3

theorem menuPoliv_ne (k : Bed) : k.menuPoliv ≠ .menuSetParameters := by
  cases k <;> decide

end Bed

/-- A call to the display. -/
inductive LcdCall
  | begin
  | clear
  | setCursor (col row : Nat)
  | print (text : WString)
  | backlight
  | noBacklight
  deriving DecidableEq

/-- The globals, the pins and the display. -/
structure State where
  menuLcd : Page
  menuReftach : Bool
  lcdBrigtlight : Bool
  temp : Int
  humidity : Int
  timeSec1 : Bool
  timeSec2 : Bool
  timeSec3 : Bool
  timeSetupSettings1 : WString
  timeSetupSettings2 : WString
  timeSetupSettings3 : WString
  timeSetupSettingsSetup : WString
  globalPoliv : Bool
  setParameters : Page
  stepSetTime : Nat
  actualTime : WString
  pins : Nat → Level
  lcd : List LcdCall

namespace State

/-- The manual flag of a bed. -/
def timeSec (s : State) : Bed → Bool
  | .bed1 => s.timeSec1
  | .bed2 => s.timeSec2
  | .bed3 => s.timeSec3

/-- The schedule of a bed. -/
def timeSetupSettings (s : State) : Bed → WString
  | .bed1 => s.timeSetupSettings1
  | .bed2 => s.timeSetupSettings2
  | .bed3 => s.timeSetupSettings3

/-- The level of a bed's valve. -/
def valve (s : State) (k : Bed) : Level := s.pins k.pin

/-- Set the manual flag of a bed. -/
def setTimeSec (s : State) (k : Bed) (b : Bool) : State :=
  match k with
  | .bed1 => { s with timeSec1 := b }
  | .bed2 => { s with timeSec2 := b }
  | .bed3 => { s with timeSec3 := b }

/-- Set the schedule of a bed. -/
def setTimeSetupSettings (s : State) (k : Bed) (time : WString) : State :=
  match k with
  | .bed1 => { s with timeSetupSettings1 := time }
  | .bed2 => { s with timeSetupSettings2 := time }
  | .bed3 => { s with timeSetupSettings3 := time }

/-- What the valves and the manual commands are about. -/
def valves (s : State) : (Bed → Level) × (Bed → Bool) × Bool := (s.valve, s.timeSec, s.globalPoliv)

/-- What typing a schedule is about. -/
def entry (s : State) : Page × Page × Nat × WString :=
  (s.menuLcd, s.setParameters, s.stepSetTime, s.timeSetupSettingsSetup)

@[simp] theorem setTimeSec_timeSec (s : State) (k : Bed) (b : Bool) (j : Bed) :
    (s.setTimeSec k b).timeSec j = if j = k then b else s.timeSec j := by
  cases k <;> cases j <;> rfl

@[simp] theorem setTimeSec_valve (s : State) (k : Bed) (b : Bool) :
    (s.setTimeSec k b).valve = s.valve := by cases k <;> rfl

@[simp] theorem setTimeSec_globalPoliv (s : State) (k : Bed) (b : Bool) :
    (s.setTimeSec k b).globalPoliv = s.globalPoliv := by cases k <;> rfl

@[simp] theorem setTimeSetupSettings_apply (s : State) (k : Bed) (time : WString) (j : Bed) :
    (s.setTimeSetupSettings k time).timeSetupSettings j =
      if j = k then time else s.timeSetupSettings j := by
  cases k <;> cases j <;> rfl

end State

/-- `digitalWrite`. -/
def digitalWrite (pin : Nat) (level : Level) (s : State) : State :=
  { s with pins := Function.update s.pins pin level }

@[simp] theorem digitalWrite_valve (k : Bed) (level : Level) (s : State) (j : Bed) :
    (digitalWrite k.pin level s).valve j = if j = k then level else s.valve j := by
  cases k <;> cases j <;> simp [digitalWrite, State.valve, Bed.pin, Function.update]

@[simp] theorem digitalWrite_timeSec (pin : Nat) (level : Level) (s : State) :
    (digitalWrite pin level s).timeSec = s.timeSec := by
  funext k; cases k <;> rfl

/-- The initial values of the globals, with every pin low and a blank display. -/
def globals : State where
  menuLcd := .menuHome
  menuReftach := true
  lcdBrigtlight := true
  temp := 0
  humidity := 0
  timeSec1 := false
  timeSec2 := false
  timeSec3 := false
  timeSetupSettings1 := "09:00".toList
  timeSetupSettings2 := "10:00".toList
  timeSetupSettings3 := "11:00".toList
  timeSetupSettingsSetup := []
  globalPoliv := false
  setParameters := .menuHome
  stepSetTime := 0
  actualTime := []
  pins := fun _ => .low
  lcd := []

/-- `setup()`, as far as the globals, the pins and the display go. -/
def setup : State :=
  if globals.lcdBrigtlight then { globals with lcd := globals.lcd ++ [.begin, .backlight] }
  else { globals with lcd := globals.lcd ++ [.begin, .noBacklight] }

end Polivunator
