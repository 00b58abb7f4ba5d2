import Polivunator.Keypad.Refine

/-!
# The display is never stale

`Menu()` redraws only if `g_bMenuReftach` is set.  What the display shows is a
function of the calls made to it: `screen` keeps the cursor moves and texts
since the last `clear`, and `light` the last of `backlight` and `noBacklight`.

`Current` is the invariant between two passes: what is shown is what `Menu()`
would draw now, or the flag is set, and the backlight is as switched.  The
events of a pass that come after `Menu()` keep it (`step_current`).  A code may
break it, since it switches the backlight without telling the display, but then
`Menu()` comes at once and the page is the one whose drawing does
(`menu_current`).  `display_fresh` is every return of `Menu()` in every run.
-/

namespace Polivunator.Display

open Labelled Keypad

/-! ### What is shown -/

/-- One call: the cursor moves and texts since the last `clear`. -/
def shows (shown : List LcdCall) : LcdCall → List LcdCall
  | .clear => []
  | .setCursor col row => shown ++ [.setCursor col row]
  | .print text => shown ++ [.print text]
  | _ => shown

def screen (cs : List LcdCall) : List LcdCall := run shows [] cs

/-- One call: the last `backlight` or `noBacklight`. -/
def lights (lit : Option Bool) : LcdCall → Option Bool
  | .backlight => some true
  | .noBacklight => some false
  | _ => lit

def light (cs : List LcdCall) : Option Bool := run lights none cs

/-- Nothing drawn before a `clear` is left. -/
theorem screen_append_clear (cs ds : List LcdCall) :
    screen (cs ++ .clear :: ds) = screen (.clear :: ds) := by
  rw [screen, run_append]
  rfl

/-- The pages that show the clock and a schedule. -/
def isInfo : Page → Bool
  | .menuInfoPoliv1 | .menuInfoPoliv2 | .menuInfoPoliv3 => true
  | _ => false

/-- The page where schedules are typed is open for some bed. -/
def Targeted (s : State) : Prop :=
  s.menuLcd = .menuSetParameters → ∃ k : Bed, s.setParameters = k.menuPoliv

theorem after_targeted (es : List Event) : Targeted (after es) := by
  intro hpage
  have hm := after_matches es
  cases ht : keypadAfter es with
  | none =>
    rw [ht] at hm
    exact absurd hpage hm.page
  | some t =>
    rw [ht] at hm
    exact ⟨t.bed, hm.bed⟩

/-- Every drawing starts with a `clear`. -/
theorem drawing_clear {s : State} (h : Targeted s) : ∃ ds, drawing s = .clear :: ds := by
  unfold drawing
  split
  case h_9 hpage =>
    obtain ⟨k, hk⟩ := h hpage
    rw [hk]
    cases k <;> exact ⟨_, rfl⟩
  case h_10 =>
    split_ifs <;> exact ⟨_, rfl⟩
  all_goals exact ⟨_, rfl⟩

/-- Only the page of the backlight sets it. -/
theorem light_drawing (cs : List LcdCall) (s : State) :
    light (cs ++ drawing s) =
      if s.menuLcd = .menuLcdBriglight then some s.lcdBrigtlight else light cs := by
  have hprompt : ∀ (page : Page) (step : Nat) (lit : Option Bool),
      run lights lit (prompt page step) = lit := by
    intro page step lit
    unfold prompt
    split_ifs
    · unfold promptText
      split <;> rfl
    · rfl
  have hinfo : ∀ (k : Bed) (lit : Option Bool), run lights lit (infoDrawing k s) = lit := by
    intro k lit
    simp only [infoDrawing, titled, run_cons, List.cons_append, run_append, lights, hprompt, run_nil]
  have htyping : ∀ (k : Bed) (lit : Option Bool), run lights lit (typingDrawing k s) = lit := by
    intro k lit
    simp only [typingDrawing, titled, run_cons, lights, hprompt]
  rw [light, run_append, ← light]
  unfold drawing
  split <;> rename_i hpage <;> rw [hpage]
  case h_6 => exact hinfo .bed1 _
  case h_7 => exact hinfo .bed2 _
  case h_8 => exact hinfo .bed3 _
  case h_9 =>
    rw [if_neg (by decide)]
    split
    · exact htyping .bed1 _
    · exact htyping .bed2 _
    · exact htyping .bed3 _
    · rfl
  case h_10 =>
    rw [if_pos rfl]
    cases s.lcdBrigtlight <;> rfl
  all_goals rfl

/-! ### What a drawing depends on -/

/-- What the drawings read, apart from the clock and the schedules. -/
theorem drawing_congr {s t : State} (hinfo : isInfo s.menuLcd = false)
    (hentry : t.entry = s.entry) (hlight : t.lcdBrigtlight = s.lcdBrigtlight)
    (hread : s.menuLcd = .menuHome → t.temp = s.temp ∧ t.humidity = s.humidity) :
    drawing t = drawing s := by
  obtain ⟨hpage, hbed, hstep, hbuffer⟩ := entry_eq_iff.mp hentry
  unfold drawing
  rw [hpage]
  split <;> rename_i hs
  case h_1 =>
    obtain ⟨htemp, hhumidity⟩ := hread hs
    rw [htemp, hhumidity]
  case h_6 => simp [hs, isInfo] at hinfo
  case h_7 => simp [hs, isInfo] at hinfo
  case h_8 => simp [hs, isInfo] at hinfo
  case h_9 =>
    rw [hbed]
    simp only [typingDrawing, hpage, hstep, hbuffer]
  case h_10 => rw [hlight]
  all_goals rfl

/-! ### The invariant -/

/-- What is shown is what `Menu()` would draw, or the flag is set. -/
structure Current (s : State) : Prop where
  shown : s.menuReftach = false → isInfo s.menuLcd = false → screen s.lcd = screen (drawing s)
  lit : light s.lcd = some s.lcdBrigtlight

theorem setup_current : Current setup := ⟨fun h => by simp [setup, globals] at h, by decide⟩

/-- An event that does not draw and leaves what is drawn alone. -/
theorem Current.of_unchanged {s t : State} (h : Current s) (hentry : t.entry = s.entry)
    (hlcd : t.lcd = s.lcd) (hlight : t.lcdBrigtlight = s.lcdBrigtlight)
    (hread : t.menuReftach = false → s.menuReftach = false ∧
      (s.menuLcd = .menuHome → t.temp = s.temp ∧ t.humidity = s.humidity)) : Current t := by
  refine ⟨fun hflag hinfo => ?_, by rw [hlcd, hlight]; exact h.lit⟩
  obtain ⟨hflag', hread'⟩ := hread hflag
  have hpage : t.menuLcd = s.menuLcd := (entry_eq_iff.mp hentry).1
  rw [hpage] at hinfo
  rw [hlcd, drawing_congr hinfo hentry hlight hread']
  exact h.shown hflag' hinfo

theorem receivesms_menuReftach {str : WString} {s : State}
    (h : (receivesms str s).menuReftach = false) : s.menuReftach = false := by
  rw [receivesms, receivesmsSchedule_eq] at h
  unfold receivesmsSwitch at h
  split_ifs at h
  exact h

/-- What messages and the remote control do not write. -/
def panel (s : State) : Int × Int × List LcdCall := (s.temp, s.humidity, s.lcd)

theorem panel_unkeyed : Unkeyed panel :=
  ⟨⟨fun _ _ => rfl, fun _ _ => rfl, fun _ _ => rfl, fun _ _ => rfl, fun _ _ _ _ _ => rfl⟩,
    fun _ _ => rfl⟩

theorem lcdBrigtlight_unswitched : Unswitched State.lcdBrigtlight :=
  ⟨fun _ _ => rfl, fun _ _ => rfl, fun _ _ => rfl, fun _ _ => rfl, fun _ _ _ _ _ => rfl⟩

/-- **The events of a pass other than `Key()` and `Menu()`.** -/
theorem step_current {s : State} (h : Current s) (e : Event) (hir : ∀ value, e ≠ .ir value)
    (hmenu : e ≠ .menu) : Current (step s e) := by
  have hentry := step_entry s e hir
  cases e with
  | clock gettime => exact h.of_unchanged hentry rfl rfl (fun hf => ⟨hf, fun _ => ⟨rfl, rfl⟩⟩)
  | ir value => exact absurd rfl (hir value)
  | menu => exact absurd rfl hmenu
  | sms str =>
    have hpanel := panel_unkeyed.receivesms (fun _ _ _ _ _ _ => rfl) str s
    simp only [panel, Prod.mk.injEq] at hpanel
    obtain ⟨htemp, hhumidity, hlcd⟩ := hpanel
    exact h.of_unchanged hentry hlcd
      (lcdBrigtlight_unswitched.receivesms (fun _ _ _ _ _ _ => rfl) str s)
      (fun hf => ⟨receivesms_menuReftach hf, fun _ => ⟨htemp, hhumidity⟩⟩)
  | temperature readHumidity readTemperature =>
    refine h.of_unchanged hentry ?_ ?_ (fun hf => ?_)
    · rw [step, readTemperatureBlock_eq]
    · rw [step, readTemperatureBlock_eq]
    · rw [step, readTemperatureBlock_eq] at hf ⊢
      simp only [Bool.or_eq_false_iff, decide_eq_false_iff_not, not_and, not_or, not_not] at hf
      exact ⟨hf.1, fun hpage => ⟨(hf.2 hpage).1.symm, (hf.2 hpage).2.symm⟩⟩
  | poliv =>
    refine h.of_unchanged hentry ?_ ?_ (fun hf => ?_)
    · rw [step, readPolivBlock_eq]
    · rw [step, readPolivBlock_eq]
    · rw [step, readPolivBlock_eq] at hf ⊢
      rw [Bool.or_eq_false_iff] at hf
      exact ⟨hf.1, fun _ => ⟨rfl, rfl⟩⟩

/-- What holds whenever `Menu()` returns. -/
structure Shown (s : State) : Prop where
  shown : isInfo s.menuLcd = false → screen s.lcd = screen (drawing s)
  lit : light s.lcd = some s.lcdBrigtlight

theorem Shown.current {s : State} (h : Shown s) : Current s := ⟨fun _ => h.shown, h.lit⟩

/-- A return of `Menu()` that has drawn. -/
theorem menu_shown {s : State} (hflag : s.menuReftach = true) (htarget : Targeted s)
    (hlit : s.menuLcd ≠ .menuLcdBriglight → light s.lcd = some s.lcdBrigtlight) :
    Shown (menu s) := by
  rw [menu_eq, hflag]
  obtain ⟨ds, hds⟩ := drawing_clear htarget
  refine ⟨fun _ => ?_, ?_⟩
  · show screen (s.lcd ++ drawing s) = screen (drawing s)
    rw [hds, screen_append_clear]
  · show light (s.lcd ++ drawing s) = some s.lcdBrigtlight
    rw [light_drawing]
    split_ifs with hpage
    · rfl
    · exact hlit hpage

/-- **`Key()` and `Menu()`.** -/
theorem menu_current {s : State} (h : Current s) (results : Option Nat)
    (htarget : Targeted (key results s)) : Shown (menu (key results s)) := by
  have hlcd : (key results s).lcd = s.lcd :=
    congrArg (fun x => x.2.2) (panel_unkeyed.key_of_untyped (fun _ _ _ _ _ _ => rfl) results s)
  have hlit : (key results s).menuLcd ≠ .menuLcdBriglight →
      light (key results s).lcd = some (key results s).lcdBrigtlight := by
    intro hpage
    rcases key_lcdBrigtlight results s with hlight | hlight
    · rw [hlcd, hlight]
      exact h.lit
    · exact absurd hlight hpage
  by_cases hflag : (key results s).menuReftach = true
  · exact menu_shown hflag htarget hlit
  · -- nothing was received and nothing is drawn
    rw [Bool.not_eq_true] at hflag
    cases results with
    | some value => simp [key] at hflag
    | none =>
      have hsame : menu (key none s) = { s with menuReftach := false } := by
        rw [menu_eq, hflag]
        simp [key]
      rw [hsame]
      exact ⟨h.shown hflag, h.lit⟩

/-! ### Runs -/

theorem run_current {s : State} (h : Current s) (es : List Event)
    (hes : ∀ e ∈ es, (∀ value, e ≠ .ir value) ∧ e ≠ .menu) : Current (run step s es) := by
  induction es generalizing s with
  | nil => exact h
  | cons e es ih =>
    obtain ⟨hir, hmenu⟩ := hes e (List.mem_cons_self ..)
    exact ih (step_current h e hir hmenu) (fun x hx => hes x (List.mem_cons_of_mem e hx))

/-- Up to the return of `Menu()` in one pass. -/
theorem upToMenu_shown {es : List Event} (h : Current (after es)) (r : Round) :
    Shown (after (es ++ r.upToMenu)) := by
  have hclock : Current (run step (after es) (r.clock.map Event.clock).toList) := by
    refine run_current h _ ?_
    intro e he
    cases hc : r.clock with
    | none => simp [hc] at he
    | some gettime =>
      simp only [hc, Option.map_some, Option.toList_some, List.mem_singleton] at he
      subst he
      exact ⟨fun value => by simp, by simp⟩
  have htarget := after_targeted (es ++ (r.clock.map Event.clock).toList ++ (r.ir.map Event.ir).toList)
  rw [after, run_append, run_append, ← after, run_key] at htarget
  rw [Round.upToMenu, after, run_append, ← after, run_append, run_append, run_key]
  exact menu_current hclock r.ir htarget

/-- **One pass.** -/
theorem round_current {es : List Event} (h : Current (after es)) (r : Round) :
    Current (after (es ++ r.events)) := by
  have hrest : ∀ e ∈ r.middle ++ (if r.poliv then [Event.poliv] else []),
      (∀ value, e ≠ .ir value) ∧ e ≠ .menu := by
    intro e he
    simp only [Round.middle, List.mem_append, List.mem_map, Option.mem_toList,
      Option.map_eq_some_iff] at he
    rcases he with (⟨str, -, rfl⟩ | ⟨t, -, rfl⟩) | he
    · exact ⟨fun value => by simp, by simp⟩
    · exact ⟨fun value => by simp, by simp⟩
    · split_ifs at he
      · rw [List.mem_singleton] at he
        subst he
        exact ⟨fun value => by simp, by simp⟩
      · simp at he
  rw [Round.events, Round.upToPoliv, List.append_assoc, ← List.append_assoc, after, run_append,
    ← after]
  exact run_current (upToMenu_shown h r).current _ hrest

/-- **Between two passes the display is current or the flag is set.** -/
theorem rounds_current (rs : List Round) : Current (after (roundEvents rs)) := by
  induction rs using List.reverseRecOn with
  | nil => exact setup_current
  | append_singleton rs r ih =>
    rw [roundEvents_append, roundEvents_cons, roundEvents_nil, List.append_nil]
    exact round_current ih r

/-- What `Menu()` would draw on a blank display. -/
def wouldDraw (s : State) : List LcdCall := (menu { s with menuReftach := true, lcd := [] }).lcd

theorem wouldDraw_eq (s : State) : wouldDraw s = drawing s := by
  rw [wouldDraw, menu_eq]
  rfl

/-- **The display is never stale.**  Whenever `Menu()` returns, what has been
sent since the last `clear` is what it would draw now, and the backlight is as
switched. -/
theorem display_fresh (rs : List Round) (r : Round) :
    (isInfo (after (roundEvents rs ++ r.upToMenu)).menuLcd = false →
      screen (after (roundEvents rs ++ r.upToMenu)).lcd =
        screen (wouldDraw (after (roundEvents rs ++ r.upToMenu)))) ∧
    light (after (roundEvents rs ++ r.upToMenu)).lcd =
      some (after (roundEvents rs ++ r.upToMenu)).lcdBrigtlight := by
  have h := upToMenu_shown (rounds_current rs) r
  rw [wouldDraw_eq]
  exact ⟨h.shown, h.lit⟩

end Polivunator.Display
