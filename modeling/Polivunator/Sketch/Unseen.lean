import Polivunator.Sketch.Loop

/-!
# The flag and the display

Nothing in the sketch reads what has been sent to the display, and only `Menu()`
reads `g_bMenuReftach`.  So the rest of the globals does not depend on them:
`Alike` is two states that differ in nothing else, and `step_alike` says that
every event keeps it.

A code that is no button does nothing but set the flag.  `run_alike` says that
such codes can be left out of any run.
-/

namespace Polivunator

open Labelled

/-- The flag and the display. -/
@[simps]
def behind (b : Bool) (lcd : List LcdCall) (s : State) : State :=
  { s with menuReftach := b, lcd := lcd }

/-- The same globals, apart from the flag and the display. -/
def Alike (s t : State) : Prop := ∃ b lcd, t = behind b lcd s

namespace Alike

variable {s t u : State}

theorem refl (s : State) : Alike s s := ⟨s.menuReftach, s.lcd, rfl⟩

theorem symm (h : Alike s t) : Alike t s := by
  obtain ⟨b, lcd, rfl⟩ := h
  exact ⟨s.menuReftach, s.lcd, rfl⟩

theorem trans (h : Alike s t) (g : Alike t u) : Alike s u := by
  obtain ⟨b, lcd, rfl⟩ := h
  obtain ⟨b', lcd', rfl⟩ := g
  exact ⟨b', lcd', rfl⟩

theorem entry (h : Alike s t) : t.entry = s.entry := by
  obtain ⟨b, lcd, rfl⟩ := h
  rfl

theorem valves (h : Alike s t) : t.valves = s.valves := by
  obtain ⟨b, lcd, rfl⟩ := h
  rfl

theorem timeSetupSettings (h : Alike s t) : t.timeSetupSettings = s.timeSetupSettings := by
  obtain ⟨b, lcd, rfl⟩ := h
  rfl

end Alike

theorem alike_behind (b : Bool) (lcd : List LcdCall) (s : State) : Alike s (behind b lcd s) :=
  ⟨b, lcd, rfl⟩

/-! ### One function -/

section Behind

variable (b : Bool) (lcd : List LcdCall) (value : Nat) (s : State)

@[simp] theorem goTo_behind (button : Nat) (page : Page) :
    goTo value button page (behind b lcd s) = behind b lcd (goTo value button page s) := by
  unfold goTo
  split_ifs <;> rfl

@[simp] theorem openSetParameters_behind (k : Bed) :
    openSetParameters value k (behind b lcd s) = behind b lcd (openSetParameters value k s) := by
  unfold openSetParameters
  split_ifs <;> rfl

@[simp] theorem toggle_behind (k : Bed) :
    toggle k (behind b lcd s) = behind b lcd (toggle k s) := by
  have hflag : (behind b lcd s).timeSec k = s.timeSec k := by cases k <;> rfl
  unfold toggle
  rw [hflag]
  split_ifs <;> cases k <;> rfl

theorem setTimeStore_behind : setTimeStore (behind b lcd s) = behind b lcd (setTimeStore s) := by
  unfold setTimeStore
  rw [behind_setParameters]
  split <;> rfl

theorem setTime_behind (d : Nat) : setTime d (behind b lcd s) = behind b lcd (setTime d s) := by
  have hreturns : setTimeReturns d (behind b lcd s) = setTimeReturns d s := rfl
  have happend : setTimeAppend d (behind b lcd s) = behind b lcd (setTimeAppend d s) := rfl
  simp only [setTime]
  rw [hreturns, happend, behind_stepSetTime]
  split_ifs
  · rfl
  · exact setTimeStore_behind b lcd { setTimeAppend d s with stepSetTime := 0 }
  · rfl

theorem keyAny_behind : keyAny value (behind b lcd s) = behind b lcd (keyAny value s) := by
  simp only [keyAny, behind_menuLcd]
  split_ifs <;> rfl

theorem keySetParameters_behind :
    keySetParameters value (behind b lcd s) = behind b lcd (keySetParameters value s) := by
  by_cases hl : value = keyLeft
  · subst hl
    rw [keySetParameters_of_left, keySetParameters_of_left]
    rfl
  · cases hd : digitOf value with
    | none => rw [keySetParameters_of_other hd hl, keySetParameters_of_other hd hl]
    | some d => rw [keySetParameters_of_digit hd, keySetParameters_of_digit hd, setTime_behind]

theorem keyHome_behind : keyHome value (behind b lcd s) = behind b lcd (keyHome value s) := by
  have hbutton : ∀ (button : Nat) (k : Bed) (s : State),
      (if value = button then toggle k (behind b lcd s) else behind b lcd s) =
        behind b lcd (if value = button then toggle k s else s) := by
    intro button k s
    rw [toggle_behind, apply_ite (behind b lcd)]
  simp only [keyHome, hbutton, goTo_behind]

theorem keyLcdBriglight_behind :
    keyLcdBriglight value (behind b lcd s) = behind b lcd (keyLcdBriglight value s) := by
  have hok : (if value = keyOk then { behind b lcd s with
        lcdBrigtlight := !s.lcdBrigtlight, menuLcd := .menuLcdBriglight } else behind b lcd s) =
      behind b lcd (if value = keyOk then { s with
        lcdBrigtlight := !s.lcdBrigtlight, menuLcd := .menuLcdBriglight } else s) := by
    rw [apply_ite (behind b lcd)]
    rfl
  simp only [keyLcdBriglight, behind_lcdBrigtlight, hok, goTo_behind]

/-- The `switch` over the page. -/
theorem keyPage_behind : keyPage value (behind b lcd s) = behind b lcd (keyPage value s) := by
  unfold keyPage
  rw [behind_menuLcd]
  split
  case h_1 => exact keyHome_behind b lcd value s
  case h_5 => exact keyLcdBriglight_behind b lcd value s
  case h_9 => exact keySetParameters_behind b lcd value s
  all_goals
    simp only [keyInfoPoliv1, keyInfoPoliv2, keyInfoPoliv3, keyPoliv1, keyPoliv2, keyPoliv3,
      keySetup, goTo_behind, openSetParameters_behind]

theorem key_behind :
    key (some value) (behind b lcd s) = behind true lcd (key (some value) s) := by
  simp only [key]
  rw [keyPage_behind, keyAny_behind]
  rfl

theorem receivesmsSchedule_behind (str : WString) :
    receivesmsSchedule str (behind b lcd s) = behind b lcd (receivesmsSchedule str s) := by
  unfold receivesmsSchedule
  split_ifs <;> rfl

theorem checkTimeAvtopoliv_behind (pin : Nat) (timeSetup : WString) :
    checkTimeAvtopoliv pin timeSetup (behind b lcd s) =
      behind b lcd (checkTimeAvtopoliv pin timeSetup s) := by
  simp only [checkTimeAvtopoliv, behind_globalPoliv, behind_timeSec1, behind_timeSec2,
    behind_timeSec3, behind_actualTime]
  split_ifs <;> rfl

theorem readPolivBlock_behind :
    (readPolivBlock (behind b lcd s)).pins = (readPolivBlock s).pins := by
  have hpins : ∀ s : State, (readPolivBlock s).pins =
      (let s := checkTimeAvtopoliv 5 s.timeSetupSettings1 s
        let s := checkTimeAvtopoliv 6 s.timeSetupSettings2 s
        checkTimeAvtopoliv 7 s.timeSetupSettings3 s).pins := by
    intro s
    simp only [readPolivBlock]
    split_ifs <;> rfl
  rw [hpins, hpins]
  simp only [checkTimeAvtopoliv_behind, behind_timeSetupSettings1, behind_timeSetupSettings2,
    behind_timeSetupSettings3]
  rfl

end Behind

/-! ### One event -/

/-- **No event looks at the flag or the display**, except to draw. -/
theorem step_alike {s t : State} (h : Alike s t) (e : Event) : Alike (step s e) (step t e) := by
  obtain ⟨b, lcd, rfl⟩ := h
  cases e with
  | clock gettime => exact ⟨b, lcd, rfl⟩
  | ir value => exact ⟨true, lcd, key_behind b lcd value s⟩
  | menu =>
    rw [step, step, menu_eq s, menu_eq (behind b lcd s)]
    exact ⟨_, _, rfl⟩
  | sms str =>
    rw [step, receivesms, step, receivesms]
    unfold receivesmsSwitch
    split_ifs
    · exact ⟨true, lcd, receivesmsSchedule_behind true lcd { allOn s with menuReftach := true } str⟩
    · exact ⟨true, lcd, receivesmsSchedule_behind true lcd { allOff s with menuReftach := true } str⟩
    · exact ⟨b, lcd, receivesmsSchedule_behind b lcd s str⟩
  | temperature readHumidity readTemperature =>
    rw [step, step, readTemperatureBlock_eq _ _ s, readTemperatureBlock_eq _ _ (behind b lcd s)]
    exact ⟨_, _, rfl⟩
  | poliv =>
    rw [step, step, readPolivBlock_eq s, readPolivBlock_eq (behind b lcd s), readPolivBlock_behind]
    exact ⟨_, _, rfl⟩

/-! ### Codes that are no button -/

/-- The buttons `Key()` knows. -/
def buttons : List Nat :=
  [keyOk, keyLeft, keyRight, keyUp, keyDown, key0, keyZ, keyR, key1, key2, key3, key4, key5, key6,
    key7, key8, key9]

theorem digitOf_of_not_mem {value : Nat} (h : value ∉ buttons) : digitOf value = none := by
  have hsub : ∀ b ∈ digitKeys, b.1 ∈ buttons := by decide
  rw [digitOf, List.lookup_eq_none_iff]
  intro b hb
  rw [bne_iff_ne]
  rintro rfl
  exact h (hsub b hb)

theorem ne_of_not_mem {value button : Nat} (h : value ∉ buttons) (hbutton : button ∈ buttons) :
    value ≠ button := by
  rintro rfl
  exact h hbutton

theorem keyPage_of_not_mem {value : Nat} (h : value ∉ buttons) (s : State) :
    keyPage value s = s := by
  have hgo : ∀ button ∈ buttons, ∀ page s, goTo value button page s = s := by
    intro button hbutton page s
    exact if_neg (ne_of_not_mem h hbutton)
  have hok := ne_of_not_mem h (show keyOk ∈ buttons by decide)
  have hopen : ∀ k s, openSetParameters value k s = s := fun k s => if_neg hok
  unfold keyPage
  split
  case h_1 =>
    rw [keyHome, hgo keyLeft (by decide), hgo keyRight (by decide),
      if_neg (ne_of_not_mem h (show key3 ∈ buttons by decide)),
      if_neg (ne_of_not_mem h (show key2 ∈ buttons by decide)),
      if_neg (ne_of_not_mem h (show key1 ∈ buttons by decide))]
  case h_5 =>
    rw [keyLcdBriglight, hgo keyLeft (by decide), hgo keyDown (by decide), if_neg hok]
  case h_9 =>
    exact keySetParameters_of_other (digitOf_of_not_mem h)
      (ne_of_not_mem h (show keyLeft ∈ buttons by decide)) s
  all_goals
    simp only [keyInfoPoliv1, keyInfoPoliv2, keyInfoPoliv3, keyPoliv1, keyPoliv2, keyPoliv3,
      keySetup, hopen, hgo keyOk (by decide), hgo keyLeft (by decide), hgo keyRight (by decide),
      hgo keyUp (by decide), hgo keyDown (by decide)]

/-- **A code that is no button** only sets the flag. -/
theorem key_of_not_mem {value : Nat} (h : value ∉ buttons) (s : State) :
    key (some value) s = behind true s.lcd s := by
  have hany : keyAny value s = s := by
    rw [keyAny, if_neg (ne_of_not_mem h (show key0 ∈ buttons by decide)),
      if_neg (ne_of_not_mem h (show keyZ ∈ buttons by decide)),
      if_neg (ne_of_not_mem h (show keyR ∈ buttons by decide))]
  simp only [key]
  rw [keyPage_of_not_mem h, hany]
  rfl

/-- The code `Key()` gets. -/
def Event.ir? : Event → Option Nat
  | .ir value => some value
  | _ => none

/-- Everything that happens but codes that are no button. -/
def effective : Event → Bool
  | .ir value => decide (value ∈ buttons)
  | _ => true

/-- **Codes that are no button can be left out** of a run, wherever they stand. -/
theorem run_alike (s : State) (es : List Event) :
    Alike (run step s es) (run step s (es.filter effective)) := by
  have hidle : ∀ s t e, effective e = false → Alike s t → Alike (step s e) t := by
    intro s t e he h
    cases e with
    | ir value =>
      have hvalue : value ∉ buttons := of_decide_eq_false he
      have hsame : Alike (step s (.ir value)) s := by
        rw [step, key_of_not_mem hvalue]
        exact (alike_behind true s.lcd s).symm
      exact hsame.trans h
    | _ => cases he
  exact run_filter hidle (fun s t e h => step_alike h e) es (Alike.refl s)

end Polivunator
