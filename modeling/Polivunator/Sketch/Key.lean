import Polivunator.Sketch.Receivesms
import Polivunator.Sketch.SetTime

/-!
# The remote control

`Key()` is one `switch` over the page followed by three buttons that work on
every page.  Each `case` is a function of the received code here; inside a case
the `if`s stand one after the other as in the source, so a later one sees what
an earlier one has written.
-/

namespace Polivunator

/-- The button of a bed on the home page: switch the bed by hand. -/
def toggle (k : Bed) (s : State) : State :=
  if s.timeSec k = false then (digitalWrite k.pin .high s).setTimeSec k true
  else { (digitalWrite k.pin .low s).setTimeSec k false with globalPoliv := false }

/-- `if (results.value == button) MENU_LCD = page;` -/
def goTo (value button : Nat) (page : Page) (s : State) : State :=
  if value = button then { s with menuLcd := page } else s

/-- `case MENU_HOME`. -/
def keyHome (value : Nat) (s : State) : State :=
  let s := if value = key1 then toggle .bed1 s else s
  let s := if value = key2 then toggle .bed2 s else s
  let s := if value = key3 then toggle .bed3 s else s
  let s := goTo value keyRight .menuSetup s
  goTo value keyLeft .menuInfoPoliv1 s

/-- `case MENU_INFO_POLIV1`. -/
def keyInfoPoliv1 (value : Nat) (s : State) : State :=
  let s := goTo value keyDown .menuInfoPoliv2 s
  goTo value keyRight .menuHome s

/-- `case MENU_INFO_POLIV2`. -/
def keyInfoPoliv2 (value : Nat) (s : State) : State :=
  let s := goTo value keyUp .menuInfoPoliv1 s
  let s := goTo value keyDown .menuInfoPoliv3 s
  goTo value keyRight .menuHome s

/-- `case MENU_INFO_POLIV3`. -/
def keyInfoPoliv3 (value : Nat) (s : State) : State :=
  let s := goTo value keyUp .menuInfoPoliv2 s
  goTo value keyRight .menuHome s

/-- `case MENU_LCD_BRIGLIGHT`. -/
def keyLcdBriglight (value : Nat) (s : State) : State :=
  let s := if value = keyOk then
      { s with lcdBrigtlight := !s.lcdBrigtlight, menuLcd := .menuLcdBriglight } else s
  let s := goTo value keyDown .menuPoliv1 s
  goTo value keyLeft .menuSetup s

/-- `if (results.value == KEY_OK)` on the page of a bed. -/
def openSetParameters (value : Nat) (k : Bed) (s : State) : State :=
  if value = keyOk then { s with menuLcd := .menuSetParameters, setParameters := k.menuPoliv }
  else s

/-- `case MENU_POLIV1`. -/
def keyPoliv1 (value : Nat) (s : State) : State :=
  let s := goTo value keyUp .menuLcdBriglight s
  let s := goTo value keyDown .menuPoliv2 s
  let s := goTo value keyLeft .menuSetup s
  openSetParameters value .bed1 s

/-- `case MENU_POLIV2`. -/
def keyPoliv2 (value : Nat) (s : State) : State :=
  let s := goTo value keyUp .menuPoliv1 s
  let s := goTo value keyDown .menuPoliv3 s
  let s := goTo value keyLeft .menuSetup s
  openSetParameters value .bed2 s

/-- `case MENU_POLIV3`: there is no page below it. -/
def keyPoliv3 (value : Nat) (s : State) : State :=
  let s := goTo value keyUp .menuPoliv2 s
  let s := goTo value keyLeft .menuSetup s
  openSetParameters value .bed3 s

/-- The digits of `case MENU_SET_PARAMETERS`, in the order of the source. -/
def digitKeys : List (Nat × Nat) :=
  [(key1, 1), (key2, 2), (key3, 3), (key4, 4), (key5, 5), (key6, 6), (key7, 7), (key8, 8),
    (key9, 9), (key0, 0)]

/-- `case MENU_SET_PARAMETERS`. -/
def keySetParameters (value : Nat) (s : State) : State :=
  let s := digitKeys.foldl (fun s b => if value = b.1 then setTime b.2 s else s) s
  if value = keyLeft then
    { s with menuLcd := s.setParameters, stepSetTime := 0, timeSetupSettingsSetup := [] }
  else s

/-- `case MENU_SETUP`. -/
def keySetup (value : Nat) (s : State) : State :=
  let s := goTo value keyOk .menuLcdBriglight s
  goTo value keyLeft .menuHome s

/-- The `switch` over the page. -/
def keyPage (value : Nat) (s : State) : State :=
  match s.menuLcd with
  | .menuHome => keyHome value s
  | .menuInfoPoliv1 => keyInfoPoliv1 value s
  | .menuInfoPoliv2 => keyInfoPoliv2 value s
  | .menuInfoPoliv3 => keyInfoPoliv3 value s
  | .menuLcdBriglight => keyLcdBriglight value s
  | .menuPoliv1 => keyPoliv1 value s
  | .menuPoliv2 => keyPoliv2 value s
  | .menuPoliv3 => keyPoliv3 value s
  | .menuSetParameters => keySetParameters value s
  | .menuSetup => keySetup value s

/-- What follows the `switch`: `KEY_0`, `KEY_Z` and `KEY_R` on any page. -/
def keyAny (value : Nat) (s : State) : State :=
  let s := if value = key0 then
      if s.menuLcd ≠ .menuSetParameters then { s with menuLcd := .menuHome } else s
    else s
  let s := if value = keyZ then allOn s else s
  if value = keyR then allOff s else s

/-- `Key()`, given what `irrecv.decode(&results)` delivers. -/
def key (results : Option Nat) (s : State) : State :=
  match results with
  | none => s
  | some value => { keyAny value (keyPage value s) with menuReftach := true }

/-! ### Reading a code -/

/-- The bed a code switches on the home page. -/
def homeBed (value : Nat) : Option Bed :=
  if value = key1 then some .bed1
  else if value = key2 then some .bed2
  else if value = key3 then some .bed3
  else none

/-- The digit a code types on the page `MENU_SET_PARAMETERS`. -/
def digitOf (value : Nat) : Option Nat := digitKeys.lookup value

theorem digitOf_lt {value d : Nat} (h : digitOf value = some d) : d < 10 := by
  obtain ⟨l₁, l₂, hl, -⟩ := List.lookup_eq_some_iff.mp h
  have hall : ∀ b ∈ digitKeys, b.2 < 10 := by decide
  exact hall (value, d) (by rw [hl]; simp)

/-- A row of `if`s on different codes is one look-up. -/
theorem foldl_buttons {α : Type} (f : Nat → α → α) (value : Nat) :
    ∀ (l : List (Nat × Nat)) (a : α), (l.map Prod.fst).Nodup →
      l.foldl (fun a b => if value = b.1 then f b.2 a else a) a =
        (l.lookup value).elim a (fun d => f d a) := by
  intro l
  induction l with
  | nil => intro a _; rfl
  | cons b l ih =>
    intro a h
    rw [List.map_cons, List.nodup_cons] at h
    rw [List.foldl_cons, ih _ h.2, List.lookup_cons]
    by_cases hb : value = b.1
    · have hnone : l.lookup value = none := by
        rw [List.lookup_eq_none_iff]
        intro c hc
        have hne : b.1 ≠ c.1 := fun he => h.1 (he ▸ List.mem_map_of_mem hc)
        simpa [hb] using hne
      simp [hb, hb ▸ hnone]
    · simp [hb, beq_false_of_ne hb]

theorem keySetParameters_of_digit {value d : Nat} (h : digitOf value = some d) (s : State) :
    keySetParameters value s = setTime d s := by
  have hleft : value ≠ keyLeft := by
    rintro rfl
    rw [show digitOf keyLeft = none by decide] at h
    exact absurd h (by simp)
  rw [keySetParameters, foldl_buttons setTime value digitKeys s (by decide), ← digitOf, h,
    if_neg hleft]
  rfl

theorem keySetParameters_of_left (s : State) :
    keySetParameters keyLeft s =
      { s with menuLcd := s.setParameters, stepSetTime := 0, timeSetupSettingsSetup := [] } := by
  rw [keySetParameters, foldl_buttons setTime keyLeft digitKeys s (by decide), if_pos rfl]
  rfl

theorem keySetParameters_of_other {value : Nat} (h : digitOf value = none) (hl : value ≠ keyLeft)
    (s : State) : keySetParameters value s = s := by
  rw [keySetParameters, foldl_buttons setTime value digitKeys s (by decide), ← digitOf, h,
    if_neg hl]
  rfl

/-! ### What a code does to the valves -/

theorem toggle_valve (k : Bed) (s : State) (j : Bed) :
    (toggle k s).valve j =
      if j = k then (if s.timeSec k then .low else .high) else s.valve j := by
  unfold toggle
  cases hk : s.timeSec k
  · rw [if_pos rfl, State.setTimeSec_valve, digitalWrite_valve]
    rfl
  · show ((digitalWrite k.pin .low s).setTimeSec k false).valve j = _
    rw [State.setTimeSec_valve, digitalWrite_valve]
    rfl

theorem toggle_timeSec (k : Bed) (s : State) (j : Bed) :
    (toggle k s).timeSec j = if j = k then !s.timeSec k else s.timeSec j := by
  unfold toggle
  cases hk : s.timeSec k
  · rw [if_pos rfl, State.setTimeSec_timeSec, digitalWrite_timeSec]
    rfl
  · show ((digitalWrite k.pin .low s).setTimeSec k false).timeSec j = _
    rw [State.setTimeSec_timeSec, digitalWrite_timeSec]
    rfl

theorem toggle_globalPoliv (k : Bed) (s : State) :
    (toggle k s).globalPoliv = if s.timeSec k then false else s.globalPoliv := by
  unfold toggle
  cases hk : s.timeSec k
  · rw [if_pos rfl, State.setTimeSec_globalPoliv]
    rfl
  · rfl

@[simp] theorem goTo_valves (value button : Nat) (page : Page) (s : State) :
    (goTo value button page s).valves = s.valves := by
  unfold goTo
  split_ifs <;> rfl

@[simp] theorem openSetParameters_valves (value : Nat) (k : Bed) (s : State) :
    (openSetParameters value k s).valves = s.valves := by
  unfold openSetParameters
  split_ifs <;> rfl

theorem keySetParameters_valves (value : Nat) (s : State) :
    (keySetParameters value s).valves = s.valves := by
  by_cases hl : value = keyLeft
  · rw [hl, keySetParameters_of_left]; rfl
  · cases hd : digitOf value with
    | some d => rw [keySetParameters_of_digit hd, setTime_valves]
    | none => rw [keySetParameters_of_other hd hl]

theorem keyLcdBriglight_valves (value : Nat) (s : State) :
    (keyLcdBriglight value s).valves = s.valves := by
  simp only [keyLcdBriglight, goTo_valves]
  split_ifs <;> rfl

/-- On the home page the three buttons of the beds switch them. -/
theorem keyHome_valves (value : Nat) (s : State) :
    (keyHome value s).valves = ((homeBed value).elim s (fun k => toggle k s)).valves := by
  simp only [keyHome, goTo_valves, homeBed]
  by_cases h1 : value = key1
  · subst h1; rfl
  · by_cases h2 : value = key2
    · subst h2; rfl
    · by_cases h3 : value = key3
      · subst h3; rfl
      · simp [h1, h2, h3]

/-- **Only the home page switches beds.** -/
theorem keyPage_valves (value : Nat) (s : State) :
    (keyPage value s).valves =
      if s.menuLcd = .menuHome then ((homeBed value).elim s (fun k => toggle k s)).valves
      else s.valves := by
  unfold keyPage
  split <;> rename_i hpage <;> rw [hpage]
  case h_1 => rw [if_pos rfl, keyHome_valves]
  case h_5 => rw [if_neg (by decide), keyLcdBriglight_valves]
  case h_9 => rw [if_neg (by decide), keySetParameters_valves]
  all_goals
    rw [if_neg (by decide)]
    simp only [keyInfoPoliv1, keyInfoPoliv2, keyInfoPoliv3, keyPoliv1, keyPoliv2, keyPoliv3,
      keySetup, goTo_valves, openSetParameters_valves]

/-- **The buttons `Z` and `R` switch on every page.** -/
theorem key_valves (value : Nat) (s : State) :
    (key (some value) s).valves =
      if value = keyZ then (allOn s).valves
      else if value = keyR then (allOff s).valves
      else if s.menuLcd = .menuHome then ((homeBed value).elim s (fun k => toggle k s)).valves
      else s.valves := by
  show (keyAny value (keyPage value s)).valves = _
  rw [← keyPage_valves]
  simp only [keyAny]
  by_cases hz : value = keyZ
  · subst hz
    rw [if_neg (by decide), if_pos rfl, if_neg (by decide), if_pos rfl, allOn_valves, allOn_valves]
  · by_cases hr : value = keyR
    · subst hr
      rw [if_neg hz, if_pos rfl, if_neg hz, if_pos rfl, allOff_valves, allOff_valves]
    · simp only [if_neg hz, if_neg hr]
      split_ifs <;> rfl

end Polivunator
