import Polivunator.Keypad.Keys
import Polivunator.Sketch.Loop

/-!
# The globals of an entry refine the entry

The keypad is an `Entry` while the page `MENU_SET_PARAMETERS` is open and
nothing otherwise.  `stroke` reads off the globals and an event what the event
is to the keypad: the page is opened for a bed, a digit is pressed, or the page
is left.  Everything else is nothing to it, the keys 1 to 3 on the home page
and the key 0 off the page among it.

`Matches` is the relation: off the page the step and the buffer are cleared,
and on it the four globals are those of the entry.  `step_matches` is one event
and `after_matches` a run.
-/

namespace Polivunator.Keypad

open Labelled WString

/-! ### The abstract keypad -/

/-- What an event can be to the keypad. -/
inductive Stroke
  | opened (k : Bed)
  | digit (d : Nat)
  | left

def act : Option Entry → Stroke → Option Entry
  | none, .opened k => some (.opened k)
  | some t, .digit d => some (t.press d)
  | some _, .left => none
  | t, _ => t

def stroke (s : State) : Event → List Stroke
  | .ir value =>
      if s.menuLcd = .menuSetParameters then
        if value = keyLeft then [.left] else ((digitOf value).map Stroke.digit).toList
      else ((openedBed s.menuLcd value).map Stroke.opened).toList
  | _ => []

/-- The keypad after a run from `setup()` on. -/
def keypadAfter (es : List Event) : Option Entry := run act none (history step stroke setup es)

/-! ### The relation -/

/-- The page is not open and nothing is typed. -/
structure Closed (s : State) : Prop where
  page : s.menuLcd ≠ .menuSetParameters
  step : s.stepSetTime = 0
  buffer : s.timeSetupSettingsSetup = []

/-- The page is open and the globals are those of the entry. -/
structure Typing (s : State) (t : Entry) : Prop where
  page : s.menuLcd = .menuSetParameters
  bed : s.setParameters = t.bed.menuPoliv
  step : s.stepSetTime = t.digits.length % 4
  buffer : s.timeSetupSettingsSetup = typed t.digits

def Matches (s : State) : Option Entry → Prop
  | none => Closed s
  | some t => Typing s t

theorem entry_eq_iff {s s' : State} :
    s'.entry = s.entry ↔ s'.menuLcd = s.menuLcd ∧ s'.setParameters = s.setParameters ∧
      s'.stepSetTime = s.stepSetTime ∧ s'.timeSetupSettingsSetup = s.timeSetupSettingsSetup := by
  rw [State.entry, State.entry, Prod.mk.injEq, Prod.mk.injEq, Prod.mk.injEq]

/-- Only the four globals matter. -/
theorem Matches.congr {s s' : State} {t : Option Entry} (h : Matches s t)
    (he : s'.entry = s.entry) : Matches s' t := by
  obtain ⟨hpage, hbed, hstep, hbuffer⟩ := entry_eq_iff.mp he
  cases t with
  | none => exact ⟨hpage ▸ h.page, hstep ▸ h.step, hbuffer ▸ h.buffer⟩
  | some t =>
    exact ⟨hpage.trans h.page, hbed.trans h.bed, hstep.trans h.step, hbuffer.trans h.buffer⟩

theorem setup_matches : Matches setup none := ⟨by decide, rfl, rfl⟩

/-! ### One event -/

/-- What is appended to the buffer is the text of the digits. -/
theorem setTimeAppend_buffer {s : State} {t : Entry} (h : Typing s t) (d : Nat) :
    (setTimeAppend d s).timeSetupSettingsSetup = typed (t.digits ++ [d]) := by
  rw [typed_snoc, setTimeAppend, h.step, h.buffer]
  by_cases hm : t.digits.length % 4 = 2
  · rw [if_neg (not_not.mpr hm), if_pos hm]
    rfl
  · rw [if_pos hm, if_neg hm]

/-- **A digit on the open page.** -/
theorem setTime_typing {s : State} {t : Entry} (h : Typing s t) {d : Nat} (hd : d < 10) :
    Typing (setTime d s) (t.press d) := by
  have hiff := setTimeReturns_iff t h.step h.buffer hd
  by_cases hacc : Accepts t.digits d
  · have hentry := setTime_entry (hiff.mpr hacc)
    simp only [State.entry, Prod.mk.injEq] at hentry
    obtain ⟨hpage, hbed, hstep, hbuffer⟩ := hentry
    have hdigits : (t.press d).digits = t.digits ++ [d] := by rw [Entry.press_digits, if_pos hacc]
    refine ⟨hpage.trans h.page, ?_, ?_, ?_⟩
    · rw [Entry.press_bed]
      exact hbed.trans h.bed
    · rw [hstep, h.step, hdigits, List.length_append, List.length_singleton]
      split_ifs <;> omega
    · rw [hbuffer, hdigits, setTimeAppend_buffer h]
  · have hret : setTimeReturns d s = true := by
      rw [← Bool.not_eq_false]
      exact fun hf => hacc (hiff.mp hf)
    have hsame : t.press d = t := by rw [Entry.press, dif_neg hacc]
    rw [setTime_of_returns hret, hsame]
    exact h

/-- An event that is no code leaves the entry alone. -/
theorem step_entry (s : State) (e : Event) (h : ∀ value, e ≠ .ir value) :
    (step s e).entry = s.entry := by
  cases e with
  | clock gettime => rfl
  | ir value => exact absurd rfl (h value)
  | menu =>
    rw [step, menu_eq]
    rfl
  | sms str => exact receivesms_entry str s
  | temperature readHumidity readTemperature =>
    rw [step, readTemperatureBlock_eq]
    rfl
  | poliv =>
    rw [step, readPolivBlock_eq]
    rfl

theorem stroke_of_not_ir {s : State} {e : Event} (h : ∀ value, e ≠ .ir value) : stroke s e = [] := by
  cases e with
  | ir value => exact absurd rfl (h value)
  | _ => rfl

/-- A code on the open page. -/
theorem key_typing {s : State} {t : Entry} (h : Typing s t) (value : Nat) :
    Matches (key (some value) s) (run act (some t) (stroke s (.ir value))) := by
  rw [stroke, if_pos h.page]
  by_cases hl : value = keyLeft
  · subst hl
    rw [if_pos rfl, key_of_left h.page]
    refine ⟨?_, rfl, rfl⟩
    show s.setParameters ≠ .menuSetParameters
    rw [h.bed]
    exact t.bed.menuPoliv_ne
  · rw [if_neg hl]
    cases hd : digitOf value with
    | none => exact Matches.congr (t := some t) h (key_of_other h.page hd hl).1
    | some d =>
      rw [key_of_digit h.page hd]
      have ht := setTime_typing h (digitOf_lt hd)
      exact ⟨ht.page, ht.bed, ht.step, ht.buffer⟩

/-- A code on any other page. -/
theorem key_of_closed {s : State} (h : Closed s) (value : Nat) :
    Matches (key (some value) s) (run act none (stroke s (.ir value))) := by
  have hdraft := draft_unkeyed.key_of_closed h.page value
  have hstep : (key (some value) s).stepSetTime = 0 := (congrArg Prod.fst hdraft).trans h.step
  have hbuffer : (key (some value) s).timeSetupSettingsSetup = [] :=
    (congrArg (fun x => x.2.1) hdraft).trans h.buffer
  rw [stroke, if_neg h.page]
  cases hopen : openedBed s.menuLcd value with
  | none => exact ⟨key_closed h.page hopen, hstep, hbuffer⟩
  | some k =>
    obtain ⟨hk, rfl⟩ := openedBed_eq_some.mp hopen
    rw [key_opens hk] at hstep hbuffer ⊢
    exact ⟨rfl, rfl, hstep, hbuffer⟩

/-- **An event is its stroke.** -/
theorem step_matches (s : State) (t : Option Entry) (e : Event) (h : Matches s t) :
    Matches (step s e) (run act t (stroke s e)) := by
  by_cases hir : ∃ value, e = .ir value
  · obtain ⟨value, rfl⟩ := hir
    cases t with
    | none => exact key_of_closed h value
    | some t => exact key_typing h value
  · have hne : ∀ value, e ≠ .ir value := fun value he => hir ⟨value, he⟩
    rw [stroke_of_not_ir hne]
    exact h.congr (step_entry s e hne)

/-- **A run is its strokes.** -/
theorem after_matches (es : List Event) : Matches (after es) (keypadAfter es) :=
  run_simulation step_matches es setup_matches

/-- **Off the page nothing is typed**, after any list of events. -/
theorem after_closed {es : List Event} (h : (after es).menuLcd ≠ .menuSetParameters) :
    Closed (after es) ∧ keypadAfter es = none := by
  have hm := after_matches es
  cases ht : keypadAfter es with
  | none =>
    rw [ht] at hm
    exact ⟨hm, rfl⟩
  | some t =>
    rw [ht] at hm
    exact absurd hm.page h

end Polivunator.Keypad
