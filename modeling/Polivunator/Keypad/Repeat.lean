import Polivunator.Keypad.Transaction

/-!
# A second time on the same page

The fourth digit sets `g_iStepSetTime` back to zero but leaves the text in
`g_sTimeSetupSettingsSetup`.  So the digits that follow are appended to the
time that has just been stored, the check of the hour reads that time instead
of them, and the next store writes both: `second_time` types `09:30` and then
four more digits.

`stores_times_iff` says this is the only thing that goes wrong: every store
writes a time made of its own four digits if and only if fewer than eight
digits are taken before the page is left.  Which digits are taken is counted by
`acceptedOf`, a function of the digits alone.
-/

namespace Polivunator.Keypad

open Labelled WString

/-- The digits the rule takes out of those that are pressed. -/
def acceptedOf (ds : List Nat) : List Nat :=
  ds.foldl (fun ds d => if Accepts ds d then ds ++ [d] else ds) []

theorem foldl_press_digits (ds : List Nat) (t : Entry) :
    (ds.foldl Entry.press t).digits =
      ds.foldl (fun ds d => if Accepts ds d then ds ++ [d] else ds) t.digits := by
  induction ds generalizing t with
  | nil => rfl
  | cons d ds ih => rw [List.foldl_cons, ih, Entry.press_digits, List.foldl_cons]

theorem entered_eq {es₁ es₂ : List Event} {k : Bed} (h : Opened es₁ k es₂) :
    entered es₁ es₂ = acceptedOf (es₂.filterMap pressed) := by
  obtain ⟨-, hdigits⟩ := opened_typing h
  rw [← hdigits, foldl_press_digits]
  rfl

/-- Every store writes a time, made of the four digits taken since the store
before it. -/
def StoresTimes (es₁ : List Event) (k : Bed) (es₂ : List Event) : Prop :=
  ∀ pre value post, es₂ = pre ++ .ir value :: post →
    (onPage es₁ pre).stepSetTime = 3 →
    taken (onPage es₁ pre) (.ir value) ≠ [] →
    ∃ (ds : List Nat) (t : Time), ds.length % 4 = 0 ∧
      entered es₁ (pre ++ [.ir value]) = ds ++ t.digits ∧
      (onPage es₁ (pre ++ [.ir value])).timeSetupSettings k = t.text

/-! ### Lengths -/

theorem length_ofNat_pos (d : Nat) : 0 < (ofNat d).length := Nat.length_toDigits_pos

theorem length_typedFrom (i : Nat) (ds : List Nat) : ds.length ≤ (typedFrom i ds).length := by
  induction ds generalizing i with
  | nil => exact Nat.le_refl 0
  | cons d ds ih =>
    have hpos := length_ofNat_pos d
    have hrest := ih (i + 1)
    rw [typedFrom, List.length_append, List.length_cons]
    split_ifs
    · rw [List.length_cons]
      omega
    · omega

/-! ### One more digit -/

theorem length_taken_le (s : State) (e : Event) : (taken s e).length ≤ 1 := by
  cases e with
  | ir value =>
    by_cases hpage : s.menuLcd = .menuSetParameters
    · cases hd : digitOf value with
      | none =>
        rw [taken_of_not_pressed (show pressed (.ir value) = none from hd)]
        exact Nat.zero_le 1
      | some d =>
        rw [taken_of_digit hpage hd]
        split_ifs <;> simp
    · rw [taken, if_neg hpage]
      exact Nat.zero_le 1
  | _ => exact Nat.zero_le 1

/-- Digits are taken one at a time, so the count meets every number on its way. -/
theorem exists_taken_at {es₁ es₂ : List Event} {n : Nat} (h : n < (entered es₁ es₂).length) :
    ∃ pre value post, es₂ = pre ++ .ir value :: post ∧ (entered es₁ pre).length = n ∧
      taken (onPage es₁ pre) (.ir value) ≠ [] := by
  induction es₂ using List.reverseRecOn with
  | nil => exact absurd h (Nat.not_lt_zero n)
  | append_singleton es₂ e ih =>
    by_cases hlt : n < (entered es₁ es₂).length
    · obtain ⟨pre, value, post, rfl, hpre, htaken⟩ := ih hlt
      exact ⟨pre, value, post ++ [e], by simp, hpre, htaken⟩
    · have hone := length_taken_le (onPage es₁ es₂) e
      rw [entered_snoc, List.length_append] at h
      have hne : taken (onPage es₁ es₂) e ≠ [] := by
        rw [← List.length_pos_iff]
        omega
      cases e with
      | ir value => exact ⟨es₂, value, [], rfl, by omega, hne⟩
      | _ => exact absurd rfl hne

/-! ### Stores -/

/-- What a store writes. -/
theorem store_eq {es₁ pre : List Event} {k : Bed} (h : Opened es₁ k pre) {value : Nat}
    (hstep : (onPage es₁ pre).stepSetTime = 3)
    (htaken : taken (onPage es₁ pre) (.ir value) ≠ []) :
    (onPage es₁ (pre ++ [.ir value])).timeSetupSettings k =
      typed (entered es₁ (pre ++ [.ir value])) := by
  obtain ⟨htyping, hdigits⟩ := opened_typing h
  rw [htyping.step, hdigits] at hstep
  rw [opened_schedules h, if_pos ⟨htaken, hstep, rfl⟩, entered_snoc]

/-- The first four digits are a time. -/
theorem first_store {es₁ es₂ : List Event} {k : Bed} (h : Opened es₁ k es₂)
    (hlen : (entered es₁ es₂).length = 4) : ∃ t : Time, entered es₁ es₂ = t.digits := by
  obtain ⟨-, hdigits⟩ := opened_typing h
  have hfirst := ((es₂.filterMap pressed).foldl Entry.press (.opened k)).first
  rw [hdigits, List.take_of_length_le (by omega)] at hfirst
  exact hfirst.eq_digits hlen

/-- **Every store writes a time if and only if there is at most one.** -/
theorem stores_times_iff {es₁ es₂ : List Event} {k : Bed} (h : Opened es₁ k es₂) :
    StoresTimes es₁ k es₂ ↔ (acceptedOf (es₂.filterMap pressed)).length < 8 := by
  rw [← entered_eq h]
  constructor
  · intro hstores
    by_contra hlen
    -- the second store writes the first time as well
    obtain ⟨pre, value, post, rfl, hseven, htaken⟩ :=
      exists_taken_at (n := 7) (show 7 < (entered es₁ es₂).length by omega)
    have hpre : Opened es₁ k pre := h.pre
    obtain ⟨htyping, hdigits⟩ := opened_typing hpre
    have hstep : (onPage es₁ pre).stepSetTime = 3 := by
      rw [htyping.step, hdigits, hseven]
    obtain ⟨-, t, -, -, htext⟩ := hstores pre value post rfl hstep htaken
    rw [store_eq hpre hstep htaken] at htext
    have hlong := length_typedFrom 0 (entered es₁ (pre ++ [.ir value]))
    have height := List.length_pos_iff.mpr htaken
    rw [← typed, htext, t.length_text, entered_snoc, List.length_append, hseven] at hlong
    omega
  · intro hlen pre value post hsplit hstep htaken
    rw [hsplit, List.append_cons] at h hlen
    have hsnoc : Opened es₁ k (pre ++ [.ir value]) := h.pre
    obtain ⟨htyping, hdigits⟩ := opened_typing hsnoc.pre
    obtain ⟨ds, hds⟩ := entered_append es₁ (pre ++ [.ir value]) post
    have hone := length_taken_le (onPage es₁ pre) (.ir value)
    have hpos := List.length_pos_iff.mpr htaken
    have hstep' := hstep
    rw [htyping.step, hdigits] at hstep'
    have hfour : (entered es₁ (pre ++ [.ir value])).length = 4 := by
      rw [hds, List.length_append, entered_snoc, List.length_append] at hlen
      rw [entered_snoc, List.length_append]
      omega
    obtain ⟨t, ht⟩ := first_store hsnoc hfour
    refine ⟨[], t, rfl, ht, ?_⟩
    rw [store_eq hsnoc.pre hstep htaken, ht, typed_digits]

/-! ### Two times on one page -/

/-- From the home page to the page of the first bed. -/
def toFirstBed : List Event := [.ir keyRight, .ir keyOk, .ir keyDown]

theorem stores_times_iff_one :
    StoresTimes toFirstBed .bed1 [.ir key0, .ir key9, .ir key3, .ir key0] ↔
      (acceptedOf ([Event.ir key0, .ir key9, .ir key3, .ir key0].filterMap pressed)).length < 8 :=
  stores_times_iff (opened_of_not_left (by decide) (by decide))

/-- `09:30`, and then `10:00` on the same page. -/
theorem second_time :
    ¬ ∀ es₁ k es₂, Opened es₁ k es₂ → StoresTimes es₁ k es₂ := by
  intro h
  have hstores := h toFirstBed .bed1
    [.ir key0, .ir key9, .ir key3, .ir key0, .ir key1, .ir key0, .ir key0, .ir key0]
    (opened_of_not_left (by decide) (by decide))
  obtain ⟨-, t, -, -, htext⟩ :=
    hstores [.ir key0, .ir key9, .ir key3, .ir key0, .ir key1, .ir key0, .ir key0] key0 [] rfl
      (by decide) (by decide)
  have hstored : (onPage toFirstBed ([.ir key0, .ir key9, .ir key3, .ir key0, .ir key1, .ir key0, .ir key0] ++
        [.ir key0])).timeSetupSettings .bed1 = "09:3010:00".toList := by decide
  have hlength := t.length_text
  rw [← htext, hstored] at hlength
  revert hlength
  decide

end Polivunator.Keypad
