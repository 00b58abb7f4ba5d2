import Polivunator.Keypad.Entry
import Polivunator.Sketch.KeyFrame

/-!
# The sketch's keypad

What `SetTime` and `Key` do to the four globals an entry lives in.

* `setTimeReturns_iff`: with a text that has been typed so far in the buffer,
  the four checks are the rule `Accepts`.  The check of the hour reads the
  first two characters of the whole buffer and the check of the minute reads
  one digit and the colon, or two digits of the first time.
* `key_opens`, `key_closed`: a code on any page but `MENU_SET_PARAMETERS`.
* `key_of_digit`, `key_of_left`, `key_of_other`: a code on that page.
-/

namespace Polivunator

open WString Keypad

/-! ### The four checks -/

theorem setTime_of_returns {d : Nat} {s : State} (h : setTimeReturns d s = true) :
    setTime d s = s := by
  rw [setTime, if_pos h]

theorem typed_cons_cons {a b : Nat} (ha : a < 10) (hb : b < 10) (ds : List Nat) :
    typed (a :: b :: ds) = Nat.digitChar a :: Nat.digitChar b :: typedFrom 2 ds := by
  simp [typed, typedFrom, ofNat_digit ha, ofNat_digit hb]

theorem typed_minute {a b c : Nat} (ha : a < 10) (hb : b < 10) (hc : c < 10) (ds : List Nat) :
    typed (a :: b :: c :: ds) =
      Nat.digitChar a :: Nat.digitChar b :: ':' :: Nat.digitChar c :: typedFrom 3 ds := by
  simp [typed, typedFrom, ofNat_digit ha, ofNat_digit hb, ofNat_digit hc]

/-- The check of the hour reads the first two characters. -/
theorem hourCheck {a b : Nat} (ha : a < 10) (hb : b < 10) (ds : List Nat) :
    toInt (substring (typed (a :: b :: ds)) 0 2) = (10 * a + b : Nat) := by
  have hnul : nul ∉ [Nat.digitChar a, Nat.digitChar b] := by
    simp only [List.mem_cons, List.not_mem_nil, or_false, not_or]
    exact ⟨(digitChar_ne_nul ha).symm, (digitChar_ne_nul hb).symm⟩
  rw [typed_cons_cons ha hb, substring_of_le (Nat.zero_le 2), ← toInt_two ha hb]
  exact congrArg toInt (cStr_eq_self hnul)

/-- The check of the minute reads the fourth and the fifth character. -/
theorem minuteCheck {a b c x : Nat} {t : WString} {y : Char} (ha : a < 10) (hb : b < 10)
    (hc : c < 10) {ds : List Nat} (hy : y ≠ nul)
    (htail : typedFrom 3 ds ++ ":".toList ++ ofNat x = y :: t) :
    substring (typed (a :: b :: c :: ds) ++ ":".toList ++ ofNat x) 3 5 = [Nat.digitChar c, y] := by
  have hnul : nul ∉ [Nat.digitChar c, y] := by
    simp only [List.mem_cons, List.not_mem_nil, or_false, not_or]
    exact ⟨(digitChar_ne_nul hc).symm, hy.symm⟩
  rw [typed_minute ha hb hc, substring_of_le (by omega)]
  simp only [List.cons_append, htail]
  exact cStr_eq_self hnul

section Checks

variable {s : State} (t : Entry) (hstep : s.stepSetTime = t.digits.length % 4)
  (hbuffer : s.timeSetupSettingsSetup = typed t.digits) {d : Nat} (hd : d < 10)
include hstep hbuffer hd

/-- The second digit: the hour, or for a later time the hour of the first one. -/
theorem setTimeReturns_hour (hm : t.digits.length % 4 = 1) :
    setTimeReturns d s = false ↔ Accepts t.digits d := by
  obtain ⟨k, ds, hlt, hfirst⟩ := t
  simp only at hstep hbuffer hm ⊢
  have hcheck : setTimeReturns d s = false ↔
      ¬ toInt (substring (typed (ds ++ [d])) 0 2) ≥ 24 := by
    rw [typed_snoc, if_neg (by omega)]
    simp [setTimeReturns, hstep, hm, hbuffer]
  rw [hcheck, Accepts, if_neg (by omega), if_neg (by omega)]
  rcases ds with _ | ⟨a, _ | ⟨b, ds⟩⟩
  · simp at hm
  · have ha := hlt a (by simp)
    rw [List.singleton_append, hourCheck ha hd]
    simp only [List.length_singleton, List.headD_cons, forall_const]
    omega
  · have hab : 10 * a + b < 24 := by
      have htwo : Completable [a, b] := Completable.of_append (ds.take 2) hfirst
      exact (completable_two.mp htwo).1
    rw [List.cons_append, List.cons_append, hourCheck (hlt a (by simp)) (hlt b (by simp))]
    simp only [List.length_cons] at hm ⊢
    omega

/-- The fourth digit: the third and the colon, or for a later time the minute of
the first one. -/
theorem setTimeReturns_minute (hm : t.digits.length % 4 = 3) :
    setTimeReturns d s = false ↔ Accepts t.digits d := by
  obtain ⟨k, ds, hlt, hfirst⟩ := t
  simp only at hstep hbuffer hm ⊢
  have hcheck : setTimeReturns d s = false ↔
      ¬ toInt (substring (typed ds ++ ":".toList ++ ofNat d) 3 5) ≥ 60 := by
    simp [setTimeReturns, hstep, hm, hbuffer]
  rw [hcheck, Accepts, if_neg (by omega), if_neg (by omega)]
  rcases ds with _ | ⟨a, _ | ⟨b, _ | ⟨c, _ | ⟨e, ds⟩⟩⟩⟩
  · simp at hm
  · simp at hm
  · simp at hm
  · have hc := hlt c (by simp)
    rw [minuteCheck (hlt a (by simp)) (hlt b (by simp)) hc (show ':' ≠ nul by decide) rfl,
      toInt_colon hc]
    simp only [List.length_cons, List.length_nil]
    omega
  · have hc := hlt c (by simp)
    have he := hlt e (by simp)
    have hce : c ≤ 5 ∧ e < 10 := by
      have hfour : Completable [a, b, c, e] := hfirst
      exact (completable_four.mp hfour).2.2
    have htail : typedFrom 3 (e :: ds) ++ ":".toList ++ ofNat d =
        Nat.digitChar e :: (typedFrom 4 ds ++ ":".toList ++ ofNat d) := by
      simp [typedFrom, ofNat_digit he]
    rw [minuteCheck (hlt a (by simp)) (hlt b (by simp)) hc (digitChar_ne_nul he) htail,
      toInt_two hc he]
    simp only [List.length_cons] at hm ⊢
    omega

/-- **The four checks are the rule `Accepts`**, by the number of digits typed
since the last time was complete. -/
theorem setTimeReturns_iff : setTimeReturns d s = false ↔ Accepts t.digits d := by
  have hmod : t.digits.length % 4 = 0 ∨ t.digits.length % 4 = 1 ∨ t.digits.length % 4 = 2 ∨
      t.digits.length % 4 = 3 := by omega
  rcases hmod with hm | hm | hm | hm
  · simp [setTimeReturns, Accepts, hstep, hm, hd]
  · exact setTimeReturns_hour t hstep hbuffer hd hm
  · simp [setTimeReturns, Accepts, hstep, hm, hd]
  · exact setTimeReturns_minute t hstep hbuffer hd hm

end Checks

/-! ### A digit that is taken -/

theorem setTime_of_not_returns {d : Nat} {s : State} (h : setTimeReturns d s = false) :
    setTime d s =
      if s.stepSetTime + 1 > 3 then setTimeStore { setTimeAppend d s with stepSetTime := 0 }
      else setTimeAppend d s := by
  simp only [setTime, h, Bool.false_eq_true, if_false]
  rfl

theorem setTime_entry {d : Nat} {s : State} (h : setTimeReturns d s = false) :
    (setTime d s).entry =
      (s.menuLcd, s.setParameters, if s.stepSetTime + 1 > 3 then 0 else s.stepSetTime + 1,
        (setTimeAppend d s).timeSetupSettingsSetup) := by
  rw [setTime_of_not_returns h]
  split_ifs
  · rw [setTimeStore_eq]
    rfl
  · rfl

/-- **Only the fourth digit stores**, and only for one bed. -/
theorem setTime_schedules {d : Nat} {s : State} {k : Bed} (h : setTimeReturns d s = false)
    (hk : s.setParameters = k.menuPoliv) (j : Bed) :
    (setTime d s).timeSetupSettings j =
      if s.stepSetTime + 1 > 3 ∧ j = k then (setTimeAppend d s).timeSetupSettingsSetup
      else s.timeSetupSettings j := by
  rw [setTime_of_not_returns h]
  by_cases hstep : s.stepSetTime + 1 > 3
  · have hk' : ({ setTimeAppend d s with stepSetTime := 0 } : State).setParameters =
        k.menuPoliv := hk
    rw [if_pos hstep, setTimeStore_of_menuPoliv hk', State.setTimeSetupSettings_apply]
    by_cases hj : j = k
    · rw [if_pos hj, if_pos ⟨hstep, hj⟩]
    · rw [if_neg hj, if_neg (fun hc => hj hc.2)]
      cases j <;> rfl
  · rw [if_neg hstep, if_neg (fun hc => hstep hc.1)]
    cases j <;> rfl

/-! ### What typing changes -/

namespace State

/-- What only typing changes, and schedules. -/
def draft (s : State) : Nat × WString × (Bed → WString) :=
  (s.stepSetTime, s.timeSetupSettingsSetup, s.timeSetupSettings)

end State

theorem draft_unkeyed : Unkeyed State.draft :=
  ⟨⟨fun _ _ => rfl, fun _ _ => rfl, fun _ _ => rfl, fun _ _ => rfl, fun _ _ _ _ _ => rfl⟩,
    fun _ _ => rfl⟩

/-! ### Opening the page -/

/-- The bed whose page it is. -/
def bedOf : Page → Option Bed
  | .menuPoliv1 => some .bed1
  | .menuPoliv2 => some .bed2
  | .menuPoliv3 => some .bed3
  | _ => none

theorem bedOf_eq_some {page : Page} {k : Bed} : bedOf page = some k ↔ page = k.menuPoliv := by
  cases page <;> cases k <;> decide

/-- The bed a code opens the page for. -/
def openedBed (page : Page) (value : Nat) : Option Bed :=
  if value = keyOk then bedOf page else none

theorem openedBed_eq_some {page : Page} {value : Nat} {k : Bed} :
    openedBed page value = some k ↔ page = k.menuPoliv ∧ value = keyOk := by
  by_cases hv : value = keyOk
  · rw [openedBed, if_pos hv, bedOf_eq_some]
    exact (and_iff_left hv).symm
  · rw [openedBed, if_neg hv]
    simp [hv]

theorem goTo_closed {value button : Nat} {page : Page} {s : State} (hp : page ≠ .menuSetParameters)
    (h : s.menuLcd ≠ .menuSetParameters) :
    (goTo value button page s).menuLcd ≠ .menuSetParameters := by
  unfold goTo
  split_ifs
  · exact hp
  · exact h

theorem keyAny_closed {s : State} (h : s.menuLcd ≠ .menuSetParameters) (value : Nat) :
    (keyAny value s).menuLcd ≠ .menuSetParameters := by
  have hr : ∀ s : State, (if value = keyR then allOff s else s).menuLcd = s.menuLcd := by
    intro s
    split_ifs <;> rfl
  have hz : ∀ s : State, (if value = keyZ then allOn s else s).menuLcd = s.menuLcd := by
    intro s
    split_ifs <;> rfl
  simp only [keyAny, hr, hz]
  split_ifs
  · show Page.menuHome ≠ .menuSetParameters
    decide
  · exact h

theorem keyHome_closed {s : State} (h : s.menuLcd ≠ .menuSetParameters) (value : Nat) :
    (keyHome value s).menuLcd ≠ .menuSetParameters := by
  have hbutton : ∀ (button : Nat) (k : Bed) (s : State),
      (if value = button then toggle k s else s).menuLcd = s.menuLcd := by
    intro button k s
    split_ifs
    · unfold toggle
      cases k <;> split_ifs <;> rfl
    · rfl
  refine goTo_closed (by decide) (goTo_closed (by decide) ?_)
  rw [hbutton, hbutton, hbutton]
  exact h

theorem keyLcdBriglight_closed {s : State} (h : s.menuLcd ≠ .menuSetParameters) (value : Nat) :
    (keyLcdBriglight value s).menuLcd ≠ .menuSetParameters := by
  refine goTo_closed (by decide) (goTo_closed (by decide) ?_)
  split_ifs
  · show Page.menuLcdBriglight ≠ .menuSetParameters
    decide
  · exact h

theorem openSetParameters_closed {value : Nat} {k : Bed} {s : State} (hv : value ≠ keyOk)
    (h : s.menuLcd ≠ .menuSetParameters) :
    (openSetParameters value k s).menuLcd ≠ .menuSetParameters := by
  rw [openSetParameters, if_neg hv]
  exact h

/-- A code that opens no page stays off it. -/
theorem key_closed {s : State} (h : s.menuLcd ≠ .menuSetParameters) {value : Nat}
    (hopen : openedBed s.menuLcd value = none) :
    (key (some value) s).menuLcd ≠ .menuSetParameters := by
  refine keyAny_closed ?_ value
  unfold keyPage
  split <;> rename_i hpage <;> rw [hpage, openedBed] at hopen
  case h_1 => exact keyHome_closed h value
  case h_2 => exact goTo_closed (by decide) (goTo_closed (by decide) h)
  case h_3 => exact goTo_closed (by decide) (goTo_closed (by decide) (goTo_closed (by decide) h))
  case h_4 => exact goTo_closed (by decide) (goTo_closed (by decide) h)
  case h_5 => exact keyLcdBriglight_closed h value
  case h_9 => exact absurd hpage h
  case h_10 => exact goTo_closed (by decide) (goTo_closed (by decide) h)
  all_goals
    have hv : value ≠ keyOk := by
      rintro rfl
      simp [bedOf] at hopen
  · exact openSetParameters_closed hv
      (goTo_closed (by decide) (goTo_closed (by decide) (goTo_closed (by decide) h)))
  · exact openSetParameters_closed hv
      (goTo_closed (by decide) (goTo_closed (by decide) (goTo_closed (by decide) h)))
  · exact openSetParameters_closed hv (goTo_closed (by decide) (goTo_closed (by decide) h))

/-- **`OK` on the page of a bed opens the page for it.** -/
theorem key_opens {s : State} {k : Bed} (h : s.menuLcd = k.menuPoliv) :
    key (some keyOk) s =
      { s with menuLcd := .menuSetParameters, setParameters := k.menuPoliv, menuReftach := true } := by
  cases k <;>
    simp [key, keyPage, h, Bed.menuPoliv, keyPoliv1, keyPoliv2, keyPoliv3, goTo, openSetParameters,
      keyAny, keyOk, keyUp, keyDown, keyLeft, key0, keyZ, keyR]

/-! ### A code on the open page -/

theorem keyPage_of_open {s : State} (h : s.menuLcd = .menuSetParameters) (value : Nat) :
    keyPage value s = keySetParameters value s := by
  rw [keyPage, h]

theorem keyAny_of_open {s : State} (h : s.menuLcd = .menuSetParameters) {value : Nat}
    (hz : value ≠ keyZ) (hr : value ≠ keyR) : keyAny value s = s := by
  simp only [keyAny, if_neg hz, if_neg hr, h, ne_eq, not_true_eq_false, if_false, ite_self]

theorem key_of_digit {s : State} (h : s.menuLcd = .menuSetParameters) {value d : Nat}
    (hd : digitOf value = some d) :
    key (some value) s = { setTime d s with menuReftach := true } := by
  have hz : value ≠ keyZ := by
    rintro rfl
    exact absurd hd (by decide +revert)
  have hr : value ≠ keyR := by
    rintro rfl
    exact absurd hd (by decide +revert)
  have hopen : (setTime d s).menuLcd = .menuSetParameters := by rw [setTime_menuLcd, h]
  rw [key, keyPage_of_open h, keySetParameters_of_digit hd, keyAny_of_open hopen hz hr]

theorem key_of_left {s : State} (h : s.menuLcd = .menuSetParameters) :
    key (some keyLeft) s =
      { s with
        menuLcd := s.setParameters
        stepSetTime := 0
        timeSetupSettingsSetup := []
        menuReftach := true } := by
  rw [key, keyPage_of_open h, keySetParameters_of_left]
  rfl

theorem key_of_other {s : State} (h : s.menuLcd = .menuSetParameters) {value : Nat}
    (hd : digitOf value = none) (hl : value ≠ keyLeft) :
    (key (some value) s).entry = s.entry ∧
      (key (some value) s).timeSetupSettings = s.timeSetupSettings := by
  have h0 : value ≠ key0 := by
    rintro rfl
    simp [digitOf, digitKeys, key0] at hd
  rw [key, keyPage_of_open h, keySetParameters_of_other hd hl]
  by_cases hz : value = keyZ
  · subst hz
    exact ⟨allOn_entry s, allOn_schedules s⟩
  · by_cases hr : value = keyR
    · subst hr
      exact ⟨allOff_entry s, allOff_schedules s⟩
    · rw [keyAny_of_open h hz hr]
      exact ⟨rfl, rfl⟩

end Polivunator
