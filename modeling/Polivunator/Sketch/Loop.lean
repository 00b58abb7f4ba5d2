import Polivunator.Arduino.SmartDelay
import Polivunator.Library.Labelled
import Polivunator.Modem.SmsWork
import Polivunator.Sketch.Key
import Polivunator.Sketch.Menu

/-!
# The loop

`loop` is one pass of the sketch's `loop()`, as a function of what the pass
reads from the hardware.

Above it are two coarser views of the same program.  An `Event` is one thing a
pass may do to the globals, and a `Round` is a pass reduced to the events it
consists of, in `loop()`'s order.  `loop_state` says a pass does to the globals
what its round does, so what holds after any list of events, in any order,
holds in every run of `loop()`.
-/

namespace Polivunator

open Labelled

/-! ### The two periodic blocks -/

/-- The block behind `ReadTemperature.Now()`. -/
def readTemperatureBlock (readHumidity readTemperature : Int) (s : State) : State :=
  let lTemp := s.temp
  let lHumidity := s.humidity
  let s := { s with humidity := readHumidity, temp := readTemperature }
  if s.menuLcd = .menuHome ∧ (lTemp ≠ s.temp ∨ lHumidity ≠ s.humidity) then
    { s with menuReftach := true }
  else s

/-- `CheckTimeAvtopoliv(pin, timeSetup)`, whose result nobody reads. -/
def checkTimeAvtopoliv (pin : Nat) (timeSetup : WString) (s : State) : State :=
  if s.globalPoliv ∨ s.timeSec1 ∨ s.timeSec2 ∨ s.timeSec3 then s
  else if timeSetup = s.actualTime then digitalWrite pin .high s
  else digitalWrite pin .low s

/-- The block behind `ReadPoliv.Now()`. -/
def readPolivBlock (s : State) : State :=
  let s := checkTimeAvtopoliv 5 s.timeSetupSettings1 s
  let s := checkTimeAvtopoliv 6 s.timeSetupSettings2 s
  let s := checkTimeAvtopoliv 7 s.timeSetupSettings3 s
  if s.menuLcd = .menuInfoPoliv1 ∨ s.menuLcd = .menuInfoPoliv2 ∨ s.menuLcd = .menuInfoPoliv3 then
    { s with menuReftach := true }
  else s

/-! ### What the two blocks change -/

theorem readTemperatureBlock_eq (readHumidity readTemperature : Int) (s : State) :
    readTemperatureBlock readHumidity readTemperature s =
      { s with
        humidity := readHumidity
        temp := readTemperature
        menuReftach := s.menuReftach ||
          decide (s.menuLcd = .menuHome ∧ (s.temp ≠ readTemperature ∨ s.humidity ≠ readHumidity)) } := by
  simp only [readTemperatureBlock]
  split_ifs with h
  · simp [h]
  · simp [h]

theorem checkTimeAvtopoliv_eq (pin : Nat) (timeSetup : WString) (s : State) :
    checkTimeAvtopoliv pin timeSetup s =
      { s with pins := (checkTimeAvtopoliv pin timeSetup s).pins } := by
  unfold checkTimeAvtopoliv
  split_ifs <;> rfl

theorem readPolivBlock_eq (s : State) :
    readPolivBlock s =
      { s with
        pins := (readPolivBlock s).pins
        menuReftach := s.menuReftach || decide (s.menuLcd = .menuInfoPoliv1 ∨
          s.menuLcd = .menuInfoPoliv2 ∨ s.menuLcd = .menuInfoPoliv3) } := by
  simp only [readPolivBlock]
  rw [checkTimeAvtopoliv_eq 5, checkTimeAvtopoliv_eq 6, checkTimeAvtopoliv_eq 7]
  split_ifs with h
  · simp [h]
  · simp [h]

/-- **A manual flag stops the automatic mode**, for every bed. -/
theorem readPolivBlock_valves_of_manual {s : State} {k : Bed} (h : s.timeSec k = true) :
    (readPolivBlock s).valves = s.valves := by
  have hstop : ∀ pin timeSetup, checkTimeAvtopoliv pin timeSetup s = s := by
    intro pin timeSetup
    rw [checkTimeAvtopoliv, if_pos]
    cases k
    · exact Or.inr (Or.inl h)
    · exact Or.inr (Or.inr (Or.inl h))
    · exact Or.inr (Or.inr (Or.inr h))
  simp only [readPolivBlock, hstop]
  split_ifs <;> rfl

/-- The level the automatic mode gives a valve. -/
def autoLevel (s : State) (timeSetup : WString) : Level :=
  if timeSetup = s.actualTime then .high else .low

/-- **Without a manual flag every valve follows its schedule.** -/
theorem readPolivBlock_valves_of_auto {s : State} (hg : s.globalPoliv = false)
    (h : ∀ k, s.timeSec k = false) :
    (readPolivBlock s).valves =
      (fun k => autoLevel s (s.timeSetupSettings k), fun _ => false, false) := by
  have h1 : s.timeSec1 = false := h .bed1
  have h2 : s.timeSec2 = false := h .bed2
  have h3 : s.timeSec3 = false := h .bed3
  have hwrite : ∀ (pin : Nat) (timeSetup : WString) (pins : Nat → Level),
      checkTimeAvtopoliv pin timeSetup { s with pins := pins } =
        digitalWrite pin (autoLevel s timeSetup) { s with pins := pins } := by
    intro pin timeSetup pins
    simp only [checkTimeAvtopoliv, hg, h1, h2, h3, Bool.false_eq_true, or_self, if_false, autoLevel]
    split_ifs <;> rfl
  have hblock : (readPolivBlock s).valves =
      (digitalWrite 7 (autoLevel s s.timeSetupSettings3)
        (digitalWrite 6 (autoLevel s s.timeSetupSettings2)
          (digitalWrite 5 (autoLevel s s.timeSetupSettings1) s))).valves := by
    simp only [readPolivBlock]
    rw [show checkTimeAvtopoliv 5 s.timeSetupSettings1 s = _ from hwrite 5 _ s.pins]
    simp only [digitalWrite, hwrite]
    split_ifs <;> rfl
  rw [hblock]
  refine Prod.ext ?_ (Prod.ext ?_ hg)
  · funext k
    cases k <;> rfl
  · funext k
    cases k
    · exact h1
    · exact h2
    · exact h3

/-! ### One pass -/

/-- What one pass reads. -/
structure Pass where
  /-- `millis()`. -/
  millis : UInt32
  /-- `time.gettime("H:i")`. -/
  gettime : WString
  /-- `irrecv.decode(&results)`. -/
  results : Option Nat
  /-- The byte waiting from the modem. -/
  sim : Option Char
  /-- The byte waiting from the serial port. -/
  usb : Option Char
  /-- `micros()` in `ReadTemperature.Now()`. -/
  microsTemperature : UInt32
  readHumidity : Int
  readTemperature : Int
  /-- `micros()` in `ReadPoliv.Now()`. -/
  microsPoliv : UInt32

/-- The whole program: the globals, the modem driver with what it has written,
and the two timers. -/
structure Sketch where
  state : State
  smsDevice : SmsWork
  written : WString
  readTemperature : SmartDelay
  readPoliv : SmartDelay

/-- After the constructors and `setup()`. -/
def start : Sketch where
  state := setup
  smsDevice := {}
  written := "AT+CMGF=1\r".toList
  readTemperature := .new 1000000
  readPoliv := .new 1000000

/-- `if(millis()%1000==0)`. -/
def clockDue (millis : UInt32) : Bool := decide (millis % 1000 = 0)

/-- What a call of the driver does to the globals. -/
def SimCall.apply (s : State) : SimCall → State
  | .pt2Func text => receivesms text s
  | _ => s

/-- `loop()`. -/
def loop (p : Pass) (k : Sketch) : Sketch :=
  let s := if clockDue p.millis then { k.state with actualTime := p.gettime } else k.state
  let s := menu (key p.results s)
  let (smsDevice, calls) := k.smsDevice.work p.sim p.usb
  let s := calls.foldl SimCall.apply s
  let (readTemperature, temperatureNow) := k.readTemperature.now p.microsTemperature
  let s := if temperatureNow then readTemperatureBlock p.readHumidity p.readTemperature s else s
  let (readPoliv, polivNow) := k.readPoliv.now p.microsPoliv
  let s := if polivNow then readPolivBlock s else s
  { state := s
    smsDevice := smsDevice
    written := k.written ++ calls.flatMap SimCall.bytes
    readTemperature := readTemperature
    readPoliv := readPoliv }

/-! ### Events -/

/-- What can happen to the globals. -/
inductive Event
  /-- The clock is read into `g_sActualTime`. -/
  | clock (gettime : WString)
  /-- `Key()` with a received code. -/
  | ir (value : Nat)
  /-- `Menu()`. -/
  | menu
  /-- The driver calls `receivesms`. -/
  | sms (str : WString)
  /-- The block behind `ReadTemperature.Now()`. -/
  | temperature (readHumidity readTemperature : Int)
  /-- The block behind `ReadPoliv.Now()`. -/
  | poliv
  deriving DecidableEq

/-- One event. -/
def step (s : State) : Event → State
  | .clock gettime => { s with actualTime := gettime }
  | .ir value => key (some value) s
  | .menu => menu s
  | .sms str => receivesms str s
  | .temperature readHumidity readTemperature =>
      readTemperatureBlock readHumidity readTemperature s
  | .poliv => readPolivBlock s

/-- The globals after a list of events, from `setup()` on. -/
def after (es : List Event) : State := run step setup es

/-! ### Rounds -/

/-- The events of one pass of `loop()`, in its order. -/
structure Round where
  clock : Option WString := none
  ir : Option Nat := none
  sms : List WString := []
  temperature : Option (Int × Int) := none
  poliv : Bool := false

namespace Round

/-- Up to the return of `Menu()`. -/
def upToMenu (r : Round) : List Event :=
  (r.clock.map Event.clock).toList ++ (r.ir.map Event.ir).toList ++ [.menu]

/-- After `Menu()` and before `ReadPoliv.Now()`. -/
def middle (r : Round) : List Event :=
  r.sms.map Event.sms ++ (r.temperature.map (fun t => Event.temperature t.1 t.2)).toList

/-- Everything before `ReadPoliv.Now()`. -/
def upToPoliv (r : Round) : List Event := r.upToMenu ++ r.middle

/-- The whole pass. -/
def events (r : Round) : List Event := r.upToPoliv ++ if r.poliv then [.poliv] else []

end Round

/-- The events of a run of `loop()`. -/
def roundEvents (rs : List Round) : List Event := rs.flatMap Round.events

@[simp] theorem roundEvents_nil : roundEvents [] = [] := rfl

@[simp] theorem roundEvents_cons (r : Round) (rs : List Round) :
    roundEvents (r :: rs) = r.events ++ roundEvents rs := List.flatMap_cons

theorem roundEvents_append (rs ts : List Round) :
    roundEvents (rs ++ ts) = roundEvents rs ++ roundEvents ts := List.flatMap_append

/-- The text of a message in a call of the driver. -/
def SimCall.text? : SimCall → Option WString
  | .pt2Func text => some text
  | _ => none

/-- The round of a pass. -/
def Pass.round (p : Pass) (k : Sketch) : Round where
  clock := if clockDue p.millis then some p.gettime else none
  ir := p.results
  sms := (k.smsDevice.work p.sim p.usb).2.filterMap SimCall.text?
  temperature :=
    if (k.readTemperature.now p.microsTemperature).2 then some (p.readHumidity, p.readTemperature)
    else none
  poliv := (k.readPoliv.now p.microsPoliv).2

theorem foldl_apply (calls : List SimCall) (s : State) :
    calls.foldl SimCall.apply s = run step s ((calls.filterMap SimCall.text?).map Event.sms) := by
  induction calls generalizing s with
  | nil => rfl
  | cons c calls ih =>
    rw [List.foldl_cons, ih]
    cases c <;> rfl

theorem run_guarded {α : Type} (b : Bool) (f : α → Event) (x : α) (s : State) :
    run step s ((if b then some x else none).map f).toList = if b then step s (f x) else s := by
  cases b <;> rfl

theorem run_key (results : Option Nat) (s : State) :
    run step s (results.map Event.ir).toList = key results s := by
  cases results <;> rfl

theorem run_poliv (b : Bool) (s : State) :
    run step s (if b then [.poliv] else []) = if b then readPolivBlock s else s := by
  cases b <;> rfl

/-- **A pass does to the globals what its round does.** -/
theorem loop_state (p : Pass) (k : Sketch) :
    (loop p k).state = run step k.state (p.round k).events := by
  simp only [Round.events, Round.upToPoliv, Round.upToMenu, Round.middle, run_append]
  rw [run_poliv]
  simp only [Pass.round, run_guarded, run_key, ← foldl_apply]
  rfl

/-- The rounds of a run. -/
def passRounds : Sketch → List Pass → List Round
  | _, [] => []
  | k, p :: ps => p.round k :: passRounds (loop p k) ps

/-- The program after a run. -/
def passes (k : Sketch) (ps : List Pass) : Sketch := run (fun k p => loop p k) k ps

/-- **Every run of `loop()` is a run of events**, from the same globals. -/
theorem passes_state (k : Sketch) (ps : List Pass) :
    (passes k ps).state = run step k.state (roundEvents (passRounds k ps)) := by
  induction ps generalizing k with
  | nil => rfl
  | cons p ps ih =>
    rw [passes, run_cons, ← passes, ih, loop_state, passRounds, roundEvents_cons, run_append]

end Polivunator
