import Polivunator.Sketch.Loop
import Polivunator.Valve.Controller

/-!
# The sketch refines the controller

`command` reads off the globals and an event which command the event is, if it
is one.  It is where a button means one thing on the home page and another one
on the page where schedules are typed, and where a tick looks at the schedules
and the clock.

`step_refines` says an event does to the pins and the four flags what its
command does to the controller, and an event that is no command does nothing to
them.  `after_refines` says the same of a run, the commands being collected by
`commands`.
-/

namespace Polivunator.Valve

open Labelled

/-- The level of a valve somebody holds, or nobody. -/
def Hold.level : Hold → Level
  | .closed => .low
  | _ => .high

/-- The manual flag of a valve. -/
def Hold.flag (h : Hold) : Bool := decide (h = .manual)

/-- Which bed an event finds due. -/
def dueAt (s : State) (k : Bed) : Bool := decide (s.timeSetupSettings k = s.actualTime)

/-- The command of a button. -/
def keyCommand (page : Page) (value : Nat) : List (Command Bed) :=
  if value = keyZ then [.on]
  else if value = keyR then [.off]
  else if page = .menuHome then ((homeBed value).map Command.toggle).toList
  else []

/-- The command of a message. -/
def smsCommand (str : WString) : List (Command Bed) :=
  if str = "ON".toList then [.on]
  else if str = "OFF".toList then [.off]
  else []

/-- The command of an event. -/
def command (s : State) : Event → List (Command Bed)
  | .ir value => keyCommand s.menuLcd value
  | .sms str => smsCommand str
  | .poliv => [.tick (dueAt s)]
  | _ => []

/-- The commands of a run from `setup()` on. -/
def commands (es : List Event) : List (Command Bed) := history step command setup es

/-- The controller's valves, flags and global bit, as the sketch keeps them. -/
def Controller.valves (c : Controller Bed) : (Bed → Level) × (Bed → Bool) × Bool :=
  (fun k => (c.hold k).level, fun k => (c.hold k).flag, c.global)

def Refines (s : State) (c : Controller Bed) : Prop := s.valves = c.valves

namespace Refines

variable {s : State} {c : Controller Bed}

theorem valve (h : Refines s c) (k : Bed) : s.valve k = (c.hold k).level :=
  congrFun (congrArg Prod.fst h) k

theorem timeSec (h : Refines s c) (k : Bed) : s.timeSec k = (c.hold k).flag :=
  congrFun (congrArg (fun v => v.2.1) h) k

theorem globalPoliv (h : Refines s c) : s.globalPoliv = c.global :=
  congrArg (fun v => v.2.2) h

theorem timeSec_iff (h : Refines s c) (k : Bed) : s.timeSec k = true ↔ c.hold k = .manual := by
  rw [h.timeSec, Hold.flag, decide_eq_true_iff]

theorem valve_high_iff (h : Refines s c) (k : Bed) :
    s.valve k = .high ↔ c.hold k ≠ .closed := by
  rw [h.valve]
  cases c.hold k <;> simp [Hold.level]

/-- Nobody holds a valve, so no flag is set. -/
theorem flags_of_not_manual (h : Refines s c) (hm : ∀ k, c.hold k ≠ .manual) :
    (∀ k, s.timeSec k = false) ∧ s.globalPoliv = false := by
  refine ⟨fun k => ?_, ?_⟩
  · rw [← Bool.not_eq_true, h.timeSec_iff]
    exact hm k
  · rw [h.globalPoliv]
    exact Controller.global_of_not_manual (hm .bed1)

/-- Only the pins and the flags matter. -/
theorem congr {t : State} (h : Refines s c) (ht : t.valves = s.valves) : Refines t c :=
  ht.trans h

end Refines

theorem setup_refines : Refines setup Controller.idle := by
  refine Prod.ext rfl (Prod.ext ?_ rfl)
  funext k
  cases k <;> rfl

/-! ### One event -/

theorem toggle_refines {s : State} {c : Controller Bed} (h : Refines s c) (k : Bed) :
    Refines (Polivunator.toggle k s) (c.act (.toggle k)) := by
  refine Prod.ext ?_ (Prod.ext ?_ ?_)
  · funext j
    show (Polivunator.toggle k s).valve j = ((c.toggle k).hold j).level
    rw [toggle_valve, Controller.toggle_hold, h.timeSec, h.valve]
    by_cases hj : j = k
    · rw [if_pos hj, if_pos hj]
      cases c.hold k <;> rfl
    · rw [if_neg hj, if_neg hj]
  · funext j
    show (Polivunator.toggle k s).timeSec j = ((c.toggle k).hold j).flag
    rw [toggle_timeSec, Controller.toggle_hold, h.timeSec, h.timeSec]
    by_cases hj : j = k
    · rw [if_pos hj, if_pos hj]
      cases c.hold k <;> rfl
    · rw [if_neg hj, if_neg hj]
  · show (Polivunator.toggle k s).globalPoliv = (c.toggle k).global
    rw [toggle_globalPoliv, Controller.toggle_global]
    split_ifs with hk
    · rfl
    · rw [h.globalPoliv]
      exact Controller.global_of_not_manual (fun hm => hk ((h.timeSec_iff k).mpr hm))

theorem poliv_refines {s : State} {c : Controller Bed} (h : Refines s c) :
    Refines (readPolivBlock s) (c.act (.tick (dueAt s))) := by
  by_cases hsus : c.Suspended
  · obtain ⟨k, hk⟩ := hsus
    rw [Controller.tick_of_suspended ⟨k, hk⟩]
    exact h.congr (readPolivBlock_valves_of_manual ((h.timeSec_iff k).mpr hk))
  · obtain ⟨hoff, hg⟩ := h.flags_of_not_manual (fun k hk => hsus ⟨k, hk⟩)
    rw [Refines, readPolivBlock_valves_of_auto hg hoff, Controller.act, if_neg hsus]
    refine Prod.ext ?_ (Prod.ext ?_ rfl)
    · funext k
      by_cases hd : s.timeSetupSettings k = s.actualTime
      · simp [Controller.valves, dueAt, autoLevel, hd, Hold.level]
      · simp [Controller.valves, dueAt, autoLevel, hd, Hold.level]
    · funext k
      by_cases hd : s.timeSetupSettings k = s.actualTime
      · simp [Controller.valves, dueAt, hd, Hold.flag]
      · simp [Controller.valves, dueAt, hd, Hold.flag]

theorem allOn_refines (s : State) (c : Controller Bed) : Refines (allOn s) (c.act .on) :=
  allOn_valves s

theorem allOff_refines (s : State) (c : Controller Bed) : Refines (allOff s) (c.act .off) :=
  allOff_valves s

theorem key_refines {s : State} {c : Controller Bed} (h : Refines s c) (value : Nat) :
    Refines (key (some value) s) (run Controller.act c (keyCommand s.menuLcd value)) := by
  rw [Refines, key_valves, keyCommand]
  split_ifs
  · exact allOn_refines s c
  · exact allOff_refines s c
  · cases homeBed value with
    | none => exact h
    | some k => exact toggle_refines h k
  · exact h

theorem receivesms_refines {s : State} {c : Controller Bed} (h : Refines s c) (str : WString) :
    Refines (receivesms str s) (run Controller.act c (smsCommand str)) := by
  rw [Refines, receivesms_valves, smsCommand]
  split_ifs
  · exact allOn_refines s c
  · exact allOff_refines s c
  · exact h

/-- **An event is its command**, and an event without one leaves the pins and
the flags alone. -/
theorem step_refines (s : State) (c : Controller Bed) (e : Event) (h : Refines s c) :
    Refines (step s e) (run Controller.act c (command s e)) := by
  cases e with
  | clock gettime => exact h
  | ir value => exact key_refines h value
  | menu => exact h.congr (menu_valves s)
  | sms str => exact receivesms_refines h str
  | temperature readHumidity readTemperature =>
    exact h.congr (by rw [step, readTemperatureBlock_eq]; rfl)
  | poliv => exact poliv_refines h

/-- **A run is its commands.** -/
theorem after_refines (es : List Event) :
    Refines (after es) (Controller.afterCommands (commands es)) :=
  run_simulation step_refines es setup_refines

/-- An event that is no command leaves the pins and the flags alone. -/
theorem step_valves_of_silent (s : State) (e : Event) (h : command s e = []) :
    (step s e).valves = s.valves := by
  cases e with
  | clock gettime => rfl
  | ir value =>
    rw [command, keyCommand] at h
    rw [step, key_valves]
    split_ifs at h ⊢
    · cases hb : homeBed value with
      | none => rfl
      | some k => rw [hb] at h; simp at h
    · rfl
  | menu => exact menu_valves s
  | sms str =>
    rw [command, smsCommand] at h
    rw [step, receivesms_valves]
    split_ifs at h ⊢
    rfl
  | temperature readHumidity readTemperature => rw [step, readTemperatureBlock_eq]; rfl
  | poliv => simp [command] at h

end Polivunator.Valve
