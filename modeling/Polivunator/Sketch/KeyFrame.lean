import Polivunator.Sketch.Key

/-!
# What the remote control and the messages leave alone

A function `f` of the globals is `Unswitched` if it does not see what the
buttons assign on the pages that neither type a schedule nor switch the
backlight, and `Unkeyed` if it does not see the backlight either.
`Unswitched.keyPage_of_ne` says what this means for the `switch` over the page,
`Unkeyed.key_of_closed` for a code on any page but `MENU_SET_PARAMETERS`, and
`key_of_untyped` for a code on that page too.

So a fact of the kind "`Key()` does not touch this" is proved by listing the
assignments once, here, and holds for a tuple of globals by `rfl`.
-/

namespace Polivunator

/-- A function of the globals that does not see pages, switches and flags. -/
structure Unswitched {α : Type} (f : State → α) : Prop where
  menuLcd : ∀ s page, f { s with menuLcd := page } = f s
  menuReftach : ∀ s b, f { s with menuReftach := b } = f s
  setParameters : ∀ s page, f { s with setParameters := page } = f s
  pins : ∀ s pins, f { s with pins := pins } = f s
  flags : ∀ s b₁ b₂ b₃ g,
    f { s with timeSec1 := b₁, timeSec2 := b₂, timeSec3 := b₃, globalPoliv := g } = f s

/-- It does not see the backlight either. -/
structure Unkeyed {α : Type} (f : State → α) : Prop extends Unswitched f where
  lcdBrigtlight : ∀ s b, f { s with lcdBrigtlight := b } = f s

/-- It does not see what typing a schedule assigns. -/
def Untyped {α : Type} (f : State → α) : Prop :=
  ∀ s step text t₁ t₂ t₃,
    f { s with
      timeSetupSettingsSetup := text
      stepSetTime := step
      timeSetupSettings1 := t₁
      timeSetupSettings2 := t₂
      timeSetupSettings3 := t₃ } = f s

namespace Unswitched

variable {α : Type} {f : State → α} (hf : Unswitched f)
include hf

theorem digitalWrite (pin : Nat) (level : Level) (s : State) :
    f (Polivunator.digitalWrite pin level s) = f s := hf.pins s _

theorem allOn (s : State) : f (Polivunator.allOn s) = f s := by
  simp only [Polivunator.allOn, hf.flags, hf.digitalWrite]

theorem allOff (s : State) : f (Polivunator.allOff s) = f s := by
  simp only [Polivunator.allOff, hf.flags, hf.digitalWrite]

theorem goTo (value button : Nat) (page : Page) (s : State) :
    f (Polivunator.goTo value button page s) = f s := by
  unfold Polivunator.goTo
  split_ifs
  · exact hf.menuLcd s page
  · rfl

theorem openSetParameters (value : Nat) (k : Bed) (s : State) :
    f (Polivunator.openSetParameters value k s) = f s := by
  unfold Polivunator.openSetParameters
  split_ifs
  · exact (hf.setParameters _ _).trans (hf.menuLcd s _)
  · rfl

theorem setTimeSec (k : Bed) (b : Bool) (s : State) : f (s.setTimeSec k b) = f s := by
  cases k <;> exact hf.flags s _ _ _ _

theorem toggle (k : Bed) (s : State) : f (Polivunator.toggle k s) = f s := by
  unfold Polivunator.toggle
  split_ifs
  · rw [hf.setTimeSec, hf.digitalWrite]
  · refine (hf.flags _ _ _ _ _).trans ?_
    rw [hf.setTimeSec, hf.digitalWrite]

theorem keyHome (value : Nat) (s : State) : f (Polivunator.keyHome value s) = f s := by
  have hbutton : ∀ (button : Nat) (k : Bed) (s : State),
      f (if value = button then Polivunator.toggle k s else s) = f s := by
    intro button k s
    split_ifs
    · exact hf.toggle k s
    · rfl
  simp only [Polivunator.keyHome, hf.goTo, hbutton]

theorem keyAny (value : Nat) (s : State) : f (Polivunator.keyAny value s) = f s := by
  have hr : ∀ s : State, f (if value = keyR then Polivunator.allOff s else s) = f s := by
    intro s
    split_ifs
    · exact hf.allOff s
    · rfl
  have hz : ∀ s : State, f (if value = keyZ then Polivunator.allOn s else s) = f s := by
    intro s
    split_ifs
    · exact hf.allOn s
    · rfl
  simp only [Polivunator.keyAny, hr, hz]
  split_ifs
  · exact hf.menuLcd s _
  · rfl
  · rfl

/-- The `switch` on the pages that only navigate or switch beds. -/
theorem keyPage_of_ne {s : State} (hset : s.menuLcd ≠ .menuSetParameters)
    (hlight : s.menuLcd ≠ .menuLcdBriglight) (value : Nat) : f (keyPage value s) = f s := by
  unfold keyPage
  split <;> rename_i hpage
  case h_1 => exact hf.keyHome value s
  case h_5 => exact absurd hpage hlight
  case h_9 => exact absurd hpage hset
  all_goals
    simp only [keyInfoPoliv1, keyInfoPoliv2, keyInfoPoliv3, keyPoliv1, keyPoliv2, keyPoliv3,
      keySetup, hf.goTo, hf.openSetParameters]

theorem keySetParameters (htyping : Untyped f) (value : Nat) (s : State) :
    f (Polivunator.keySetParameters value s) = f s := by
  by_cases hl : value = keyLeft
  · subst hl
    rw [keySetParameters_of_left]
    exact (htyping { s with menuLcd := s.setParameters } 0 [] _ _ _).trans (hf.menuLcd s _)
  · cases hd : digitOf value with
    | none => rw [keySetParameters_of_other hd hl]
    | some d =>
      rw [keySetParameters_of_digit hd, setTime_eq]
      exact htyping s _ _ _ _ _

/-- A message switches like a button and schedules like typing. -/
theorem receivesms (htyping : Untyped f) (str : WString) (s : State) :
    f (Polivunator.receivesms str s) = f s := by
  have hschedule : ∀ s, f (receivesmsSchedule str s) = f s := by
    intro s
    rw [receivesmsSchedule_eq]
    exact htyping s _ _ _ _ _
  rw [Polivunator.receivesms, hschedule]
  unfold receivesmsSwitch
  split_ifs
  · exact (hf.menuReftach _ _).trans (hf.allOn s)
  · exact (hf.menuReftach _ _).trans (hf.allOff s)
  · rfl

/-- **A code on any page but that of the backlight**, for what typing does not
change. -/
theorem key_of_ne (htyping : Untyped f) {s : State} (hlight : s.menuLcd ≠ .menuLcdBriglight)
    (value : Nat) : f (key (some value) s) = f s := by
  refine (hf.menuReftach _ _).trans ?_
  rw [hf.keyAny]
  by_cases hset : s.menuLcd = .menuSetParameters
  · rw [keyPage, hset]
    exact hf.keySetParameters htyping value s
  · exact hf.keyPage_of_ne hset hlight value

end Unswitched

namespace Unkeyed

variable {α : Type} {f : State → α} (hf : Unkeyed f)
include hf

theorem keyLcdBriglight (value : Nat) (s : State) :
    f (Polivunator.keyLcdBriglight value s) = f s := by
  simp only [Polivunator.keyLcdBriglight, hf.goTo]
  split_ifs
  · exact (hf.menuLcd { s with lcdBrigtlight := !s.lcdBrigtlight } _).trans (hf.lcdBrigtlight s _)
  · rfl

/-- **Off the page of a schedule** no code changes it. -/
theorem key_of_closed {s : State} (hset : s.menuLcd ≠ .menuSetParameters) (value : Nat) :
    f (key (some value) s) = f s := by
  refine (hf.menuReftach _ _).trans ?_
  rw [hf.keyAny]
  by_cases hlight : s.menuLcd = .menuLcdBriglight
  · rw [keyPage, hlight]
    exact hf.keyLcdBriglight value s
  · exact hf.keyPage_of_ne hset hlight value

/-- **No code changes it**, if typing does not. -/
theorem key_of_untyped (htyping : Untyped f) (results : Option Nat) (s : State) :
    f (key results s) = f s := by
  cases results with
  | none => rfl
  | some value =>
    by_cases hset : s.menuLcd = .menuSetParameters
    · exact hf.key_of_ne htyping (by rw [hset]; decide) value
    · exact hf.key_of_closed hset value

end Unkeyed

/-- A code that switches the backlight stays on its page. -/
theorem key_lcdBrigtlight (results : Option Nat) (s : State) :
    (key results s).lcdBrigtlight = s.lcdBrigtlight ∨
      (key results s).menuLcd = .menuLcdBriglight := by
  have hlit : Unswitched State.lcdBrigtlight :=
    ⟨fun _ _ => rfl, fun _ _ => rfl, fun _ _ => rfl, fun _ _ => rfl, fun _ _ _ _ _ => rfl⟩
  cases results with
  | none => exact Or.inl rfl
  | some value =>
    by_cases hlight : s.menuLcd = .menuLcdBriglight
    · by_cases hok : value = keyOk
      · refine Or.inr ?_
        subst hok
        simp [key, keyPage, hlight, keyLcdBriglight, goTo, keyAny, keyOk, keyDown, keyLeft, key0,
          keyZ, keyR]
      · refine Or.inl ((hlit.menuReftach _ _).trans ?_)
        rw [hlit.keyAny, keyPage, hlight]
        simp only [keyLcdBriglight, hlit.goTo, if_neg hok]
    · exact Or.inl (hlit.key_of_ne (fun _ _ _ _ _ _ => rfl) hlight value)

end Polivunator
