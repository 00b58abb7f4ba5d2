import Polivunator.Keypad.Refine

/-!
# Typing a schedule is a transaction

`Opened es₁ k es₂` says that the page `MENU_SET_PARAMETERS` is opened for bed
`k` after `es₁` and stays open for `es₂`.  `entered` collects the digits that
`SetTime` takes meanwhile, and `opened_typing` says they are those of the entry.

`Transactional` puts together what follows from it: where the page comes
from and how it is left, which digits are taken up to the first store, what is
stored, and that nothing else a key does changes a schedule.
-/

namespace Polivunator.Keypad

open Labelled WString

/-! ### The digits that are taken -/

/-- The digit of a code, on whatever page. -/
def pressed : Event → Option Nat
  | .ir value => digitOf value
  | _ => none

/-- The digit an event types, if `SetTime` takes it. -/
def taken (s : State) : Event → List Nat
  | .ir value =>
      if s.menuLcd = .menuSetParameters then
        match digitOf value with
        | some d => if setTimeReturns d s then [] else [d]
        | none => []
      else []
  | _ => []

theorem taken_of_digit {s : State} (h : s.menuLcd = .menuSetParameters) {value d : Nat}
    (hd : digitOf value = some d) :
    taken s (.ir value) = if setTimeReturns d s then [] else [d] := by
  rw [taken, if_pos h, hd]

theorem taken_of_not_pressed {s : State} {e : Event} (h : pressed e = none) : taken s e = [] := by
  cases e with
  | ir value =>
    have hd : digitOf value = none := h
    rw [taken, hd]
    exact ite_self _
  | _ => rfl

/-- What is taken is what the rule takes. -/
theorem press_eq_taken {s : State} {t : Entry} (h : Typing s t) {value d : Nat}
    (hd : digitOf value = some d) :
    (t.press d).digits = t.digits ++ taken s (.ir value) := by
  have hiff := setTimeReturns_iff t h.step h.buffer (digitOf_lt hd)
  rw [Entry.press_digits, taken_of_digit h.page hd]
  by_cases hacc : Accepts t.digits d
  · rw [if_pos hacc, hiff.mpr hacc]
    rfl
  · have hret : setTimeReturns d s = true := by
      rw [← Bool.not_eq_false]
      exact fun hf => hacc (hiff.mp hf)
    rw [if_neg hacc, hret, if_pos rfl, List.append_nil]

/-! ### One event on the open page -/

/-- Only `LEFT` leaves the page. -/
theorem typing_leaves {s : State} {t : Entry} (h : Typing s t) (e : Event) :
    (step s e).menuLcd ≠ .menuSetParameters ↔ e = .ir keyLeft := by
  constructor
  · intro hpage
    by_contra hl
    have hm := step_matches s (some t) e h
    have hstill : ∃ t', run act (some t) (stroke s e) = some t' := by
      cases e with
      | ir value =>
        have hv : value ≠ keyLeft := fun hv => hl (hv ▸ rfl)
        rw [stroke, if_pos h.page, if_neg hv]
        cases digitOf value with
        | none => exact ⟨t, rfl⟩
        | some d => exact ⟨t.press d, rfl⟩
      | _ => exact ⟨t, rfl⟩
    obtain ⟨t', ht'⟩ := hstill
    rw [ht'] at hm
    exact hpage hm.page
  · rintro rfl
    rw [step, key_of_left h.page]
    show s.setParameters ≠ .menuSetParameters
    rw [h.bed]
    exact t.bed.menuPoliv_ne

/-- **One event while the page stays open.** -/
theorem typing_step {s : State} {t : Entry} (h : Typing s t) {e : Event}
    (hpage : (step s e).menuLcd = .menuSetParameters) :
    Typing (step s e) ((pressed e).toList.foldl Entry.press t) ∧
      ((pressed e).toList.foldl Entry.press t).digits = t.digits ++ taken s e := by
  have hl : e ≠ .ir keyLeft := fun he => (typing_leaves h e).mpr he hpage
  have hm := step_matches s (some t) e h
  cases hp : pressed e with
  | none =>
    have hstroke : stroke s e = [] := by
      cases e with
      | ir value =>
        have hv : value ≠ keyLeft := fun hv => hl (hv ▸ rfl)
        have hd : digitOf value = none := hp
        rw [stroke, if_pos h.page, if_neg hv, hd]
        rfl
      | _ => rfl
    rw [hstroke] at hm
    rw [taken_of_not_pressed hp, List.append_nil]
    exact ⟨hm, rfl⟩
  | some d =>
    cases e with
    | ir value =>
      have hv : value ≠ keyLeft := fun hv => hl (hv ▸ rfl)
      have hd : digitOf value = some d := hp
      rw [stroke, if_pos h.page, if_neg hv, hd] at hm
      exact ⟨hm, press_eq_taken h hd⟩
    | _ => simp [pressed] at hp

/-- **A key changes a schedule only with the fourth digit**, and only that of
the bed the page is open for. -/
theorem typing_schedules {s : State} {t : Entry} (h : Typing s t) (value : Nat) (j : Bed) :
    (step s (.ir value)).timeSetupSettings j =
      if taken s (.ir value) ≠ [] ∧ s.stepSetTime = 3 ∧ j = t.bed then
        typed (t.digits ++ taken s (.ir value))
      else s.timeSetupSettings j := by
  by_cases hl : value = keyLeft
  · subst hl
    have htaken : taken s (.ir keyLeft) = [] := taken_of_not_pressed (by decide)
    rw [step, key_of_left h.page, if_neg (fun hc => hc.1 htaken)]
    cases j <;> rfl
  · cases hd : digitOf value with
    | none =>
      have htaken : taken s (.ir value) = [] := taken_of_not_pressed hd
      rw [step, (key_of_other h.page hd hl).2, if_neg (fun hc => hc.1 htaken)]
    | some d =>
      have hkey : (step s (.ir value)).timeSetupSettings j = (setTime d s).timeSetupSettings j := by
        rw [step, key_of_digit h.page hd]
        cases j <;> rfl
      rw [hkey, taken_of_digit h.page hd]
      cases hret : setTimeReturns d s with
      | true => rw [setTime_of_returns hret, if_neg (fun hc => hc.1 rfl)]
      | false =>
        rw [setTime_schedules hret h.bed, setTimeAppend_buffer h]
        have hlt : s.stepSetTime < 4 := by
          rw [h.step]
          omega
        by_cases hc : s.stepSetTime = 3 ∧ j = t.bed
        · rw [if_pos ⟨by omega, hc.2⟩, if_pos ⟨by simp, hc⟩]
          rfl
        · rw [if_neg (fun hc' => hc ⟨by omega, hc'.2⟩), if_neg (fun hc' => hc hc'.2)]

/-! ### While the page is open -/

/-- The globals after `es₁`, the code that opens the page, and `es₂`. -/
def onPage (es₁ es₂ : List Event) : State := after (es₁ ++ .ir keyOk :: es₂)

/-- The page is opened for a bed, and stays open. -/
structure Opened (es₁ : List Event) (k : Bed) (es₂ : List Event) : Prop where
  page : (after es₁).menuLcd = k.menuPoliv
  stays : ∀ pre post, es₂ = pre ++ post → (onPage es₁ pre).menuLcd = .menuSetParameters

/-- The digits taken since the page was opened. -/
def entered (es₁ es₂ : List Event) : List Nat := history step taken (onPage es₁ []) es₂

theorem run_onPage (es₁ es₂ : List Event) : run step (onPage es₁ []) es₂ = onPage es₁ es₂ := by
  rw [onPage, onPage, after, after, ← run_append, List.append_assoc]
  rfl

theorem onPage_snoc (es₁ es₂ : List Event) (e : Event) :
    onPage es₁ (es₂ ++ [e]) = step (onPage es₁ es₂) e := by
  rw [← run_onPage, run_snoc, run_onPage]

theorem entered_snoc (es₁ es₂ : List Event) (e : Event) :
    entered es₁ (es₂ ++ [e]) = entered es₁ es₂ ++ taken (onPage es₁ es₂) e := by
  rw [entered, history_snoc, run_onPage, ← entered]

theorem entered_append (es₁ es₂ es₃ : List Event) :
    ∃ ds, entered es₁ (es₂ ++ es₃) = entered es₁ es₂ ++ ds := ⟨_, history_append ..⟩

theorem Opened.pre {es₁ pre post : List Event} {k : Bed} (h : Opened es₁ k (pre ++ post)) :
    Opened es₁ k pre :=
  ⟨h.page, fun p q hsplit => h.stays p (q ++ post) (by rw [hsplit, List.append_assoc])⟩

theorem opened_page {es₁ es₂ : List Event} {k : Bed} (h : Opened es₁ k es₂) :
    (onPage es₁ es₂).menuLcd = .menuSetParameters := h.stays es₂ [] (List.append_nil _).symm

/-- An event after which the page is still open. -/
theorem Opened.snoc {es₁ es₂ : List Event} {k : Bed} {e : Event} (h : Opened es₁ k es₂)
    (hpage : (onPage es₁ (es₂ ++ [e])).menuLcd = .menuSetParameters) :
    Opened es₁ k (es₂ ++ [e]) := by
  refine ⟨h.page, fun pre post hsplit => ?_⟩
  rcases List.eq_nil_or_concat post with rfl | ⟨post, x, rfl⟩
  · rw [List.append_nil] at hsplit
    rw [← hsplit]
    exact hpage
  · rw [List.concat_eq_append, ← List.append_assoc] at hsplit
    exact h.stays pre post (List.append_inj_left' hsplit rfl)

theorem opens_typing {es : List Event} {k : Bed} (h : (after es).menuLcd = k.menuPoliv) :
    Typing (onPage es []) (.opened k) := by
  obtain ⟨hclosed, -⟩ := after_closed (h ▸ k.menuPoliv_ne)
  rw [onPage, after, run_snoc, ← after, step, key_opens h]
  exact ⟨rfl, rfl, hclosed.step, hclosed.buffer⟩

theorem opened_nil {es : List Event} {k : Bed} (h : (after es).menuLcd = k.menuPoliv) :
    Opened es k [] := by
  refine ⟨h, fun pre post hsplit => ?_⟩
  obtain ⟨rfl, -⟩ := List.append_eq_nil_iff.mp hsplit.symm
  exact (opens_typing h).page

/-- **An open page is an entry**: its digits are those that were taken.  By
induction from the end, each event being one of `typing_step`. -/
theorem opened_typing {es₁ es₂ : List Event} {k : Bed} (h : Opened es₁ k es₂) :
    Typing (onPage es₁ es₂) ((es₂.filterMap pressed).foldl Entry.press (.opened k)) ∧
      ((es₂.filterMap pressed).foldl Entry.press (.opened k)).digits = entered es₁ es₂ := by
  induction es₂ using List.reverseRecOn with
  | nil => exact ⟨opens_typing h.page, rfl⟩
  | append_singleton es₂ e ih =>
    obtain ⟨htyping, hdigits⟩ := ih h.pre
    have hpage : (step (onPage es₁ es₂) e).menuLcd = .menuSetParameters := by
      rw [← onPage_snoc]
      exact opened_page h
    obtain ⟨htyping', hdigits'⟩ := typing_step htyping hpage
    have hpress : (es₂ ++ [e]).filterMap pressed =
        es₂.filterMap pressed ++ (pressed e).toList := by
      rw [List.filterMap_append]
      cases he : pressed e with
      | none => rw [List.filterMap_cons_none he]; rfl
      | some d => rw [List.filterMap_cons_some he]; rfl
    rw [onPage_snoc, hpress, List.foldl_append, hdigits', hdigits, entered_snoc]
    exact ⟨htyping', rfl⟩

theorem opened_bed (k : Bed) (ds : List Nat) :
    (ds.foldl Entry.press (.opened k)).bed = k := Entry.foldl_press_bed _ ds

/-- The page stays open as long as `LEFT` is not pressed. -/
theorem opened_of_not_left {es₁ es₂ : List Event} {k : Bed}
    (h : (after es₁).menuLcd = k.menuPoliv) (hl : .ir keyLeft ∉ es₂) : Opened es₁ k es₂ := by
  induction es₂ using List.reverseRecOn with
  | nil => exact opened_nil h
  | append_singleton es₂ e ih =>
    rw [List.mem_append, not_or, List.mem_singleton] at hl
    have hopened := ih hl.1
    refine hopened.snoc ?_
    by_contra hpage
    rw [onPage_snoc] at hpage
    exact hl.2 ((typing_leaves (opened_typing hopened).1 e).mp hpage).symm

/-- **An open page was opened**, by `OK` on the page of a bed. -/
theorem opened_of_page (es : List Event) (h : (after es).menuLcd = .menuSetParameters) :
    ∃ es₁ k es₂, es = es₁ ++ .ir keyOk :: es₂ ∧ Opened es₁ k es₂ := by
  induction es using List.reverseRecOn with
  | nil => exact absurd h (by decide)
  | append_singleton es e ih =>
    by_cases hpage : (after es).menuLcd = .menuSetParameters
    · obtain ⟨es₁, k, es₂, rfl, hopened⟩ := ih hpage
      rw [List.append_assoc, List.cons_append] at h ⊢
      exact ⟨es₁, k, es₂ ++ [e], rfl, hopened.snoc h⟩
    · -- the page is opened just now
      obtain ⟨-, hnone⟩ := after_closed hpage
      have hm := step_matches _ _ e (after_matches es)
      rw [after, run_snoc, ← after] at h
      rw [hnone] at hm
      cases e with
      | ir value =>
        rw [stroke, if_neg hpage] at hm
        cases hopen : openedBed (after es).menuLcd value with
        | none =>
          rw [hopen] at hm
          exact absurd h hm.page
        | some k =>
          obtain ⟨hk, rfl⟩ := openedBed_eq_some.mp hopen
          exact ⟨es, k, [], rfl, opened_nil hk⟩
      | _ => exact absurd h hm.page

/-! ### The parts of the transaction -/

section Session

variable {es₁ es₂ : List Event} {k : Bed}

/-- A digit before the first store. -/
theorem taken_iff_completable (h : Opened es₁ k es₂) (hlen : (entered es₁ es₂).length < 4)
    {value d : Nat} (hd : digitOf value = some d) :
    taken (onPage es₁ es₂) (.ir value) = [d] ↔
      Completable (entered es₁ es₂ ++ [d]) := by
  obtain ⟨htyping, hdigits⟩ := opened_typing h
  have hpress := press_eq_taken htyping hd
  have hfirst := ((es₂.filterMap pressed).foldl Entry.press (.opened k)).first
  rw [hdigits, List.take_of_length_le (by omega)] at hfirst
  rw [Entry.press_digits, hdigits] at hpress
  rw [← accepts_iff_completable hlen hfirst]
  constructor
  · intro htaken
    by_contra hacc
    rw [if_neg hacc, htaken] at hpress
    simp at hpress
  · intro hacc
    rw [if_pos hacc] at hpress
    exact (List.append_cancel_left hpress).symm

/-- A digit that is not taken. -/
theorem step_of_not_taken {s : State} (h : s.menuLcd = .menuSetParameters) {value d : Nat}
    (hd : digitOf value = some d) (hnot : taken s (.ir value) = []) :
    step s (.ir value) = { s with menuReftach := true } := by
  rw [taken_of_digit h hd] at hnot
  have hret : setTimeReturns d s = true := by
    by_contra hf
    rw [if_neg hf] at hnot
    simp at hnot
  rw [step, key_of_digit h hd, setTime_of_returns hret]

/-- The schedules after a code on the open page. -/
theorem opened_schedules (h : Opened es₁ k es₂) (value : Nat) (j : Bed) :
    (onPage es₁ (es₂ ++ [.ir value])).timeSetupSettings j =
      if taken (onPage es₁ es₂) (.ir value) ≠ [] ∧ (entered es₁ es₂).length % 4 = 3 ∧ j = k then
        typed (entered es₁ es₂ ++ taken (onPage es₁ es₂) (.ir value))
      else (onPage es₁ es₂).timeSetupSettings j := by
  obtain ⟨htyping, hdigits⟩ := opened_typing h
  rw [onPage_snoc, typing_schedules htyping, htyping.step, hdigits, opened_bed]

/-- Up to the first store no key changes a schedule. -/
theorem schedules_before_store (h : Opened es₁ k es₂) (hlen : (entered es₁ es₂).length < 4)
    {pre post : List Event} {value : Nat}
    (hsplit : es₂ ++ [.ir keyLeft] = pre ++ .ir value :: post) :
    (onPage es₁ (pre ++ [.ir value])).timeSetupSettings = (onPage es₁ pre).timeSetupSettings := by
  have hsame : ∀ hpre : Opened es₁ k pre,
      (taken (onPage es₁ pre) (.ir value) ≠ [] →
        (entered es₁ pre).length % 4 ≠ 3) →
      (onPage es₁ (pre ++ [.ir value])).timeSetupSettings =
        (onPage es₁ pre).timeSetupSettings := by
    intro hpre hstep
    funext j
    rw [opened_schedules hpre, if_neg (fun hc => hstep hc.1 hc.2.1)]
  rcases List.eq_nil_or_concat post with rfl | ⟨post, x, rfl⟩
  · -- the key is `LEFT` itself
    obtain ⟨rfl, hlast⟩ := List.append_inj' hsplit rfl
    have hvalue : value = keyLeft := by
      simpa using (List.cons.inj hlast).1.symm
    subst hvalue
    exact hsame h (fun htaken => absurd (taken_of_not_pressed (by decide)) htaken)
  · rw [List.concat_eq_append, ← List.cons_append, ← List.append_assoc] at hsplit
    have hes₂ := List.append_inj_left' hsplit rfl
    rw [hes₂, List.append_cons] at h hlen
    refine hsame (Opened.pre (Opened.pre h)) (fun htaken hmod => ?_)
    obtain ⟨ds, hds⟩ := entered_append es₁ (pre ++ [.ir value]) post
    have hone : (entered es₁ (pre ++ [.ir value])).length =
        (entered es₁ pre).length + (taken (onPage es₁ pre) (.ir value)).length := by
      rw [entered_snoc, List.length_append]
    have hpos := List.length_pos_iff.mpr htaken
    rw [hds, List.length_append] at hlen
    omega

end Session

/-- A key that changes a schedule. -/
theorem changes_schedule (es : List Event) (value : Nat) (j : Bed)
    (h : (after (es ++ [.ir value])).timeSetupSettings j ≠ (after es).timeSetupSettings j) :
    (after es).menuLcd = .menuSetParameters ∧ (after es).stepSetTime = 3 ∧
      taken (after es) (.ir value) ≠ [] ∧ (after es).setParameters = j.menuPoliv := by
  rw [after, run_snoc, ← after] at h
  have hm := after_matches es
  cases ht : keypadAfter es with
  | none =>
    rw [ht] at hm
    have hdraft := draft_unkeyed.key_of_closed hm.page value
    exact absurd (congrFun (congrArg (fun x => x.2.2) hdraft) j) h
  | some t =>
    rw [ht] at hm
    rw [typing_schedules hm] at h
    split_ifs at h with hc
    · exact ⟨hm.page, hc.2.1, hc.1, hc.2.2 ▸ hm.bed⟩
    · exact absurd rfl h

/-- A digit on the open page stays there and switches nothing. -/
theorem digit_confined {s : State} (h : s.menuLcd = .menuSetParameters) {value d : Nat}
    (hd : digitOf value = some d) :
    (step s (.ir value)).menuLcd = .menuSetParameters ∧ (step s (.ir value)).valves = s.valves := by
  rw [step, key_of_digit h hd]
  exact ⟨(setTime_menuLcd d s).trans h, setTime_valves d s⟩

/-- What makes typing a schedule a transaction that is confined to its bed. -/
structure Transactional : Prop where
  /-- Off the page nothing is typed. -/
  closed : ∀ es, (after es).menuLcd ≠ .menuSetParameters →
    (after es).stepSetTime = 0 ∧ (after es).timeSetupSettingsSetup = []
  /-- The page was opened by `OK` on the page of a bed, which `g_iSetParameters` still names. -/
  opened : ∀ es, (after es).menuLcd = .menuSetParameters →
    ∃ es₁ k es₂, es = es₁ ++ .ir keyOk :: es₂ ∧ Opened es₁ k es₂ ∧
      (after es).setParameters = k.menuPoliv
  /-- It is left by `LEFT` only, back to the page of the bed. -/
  left : ∀ es₁ k es₂, Opened es₁ k es₂ →
    (∀ e, (onPage es₁ (es₂ ++ [e])).menuLcd ≠ .menuSetParameters ↔ e = .ir keyLeft) ∧
      (onPage es₁ (es₂ ++ [.ir keyLeft])).menuLcd = k.menuPoliv
  /-- Up to the first store a digit is taken if a time can still be completed,
  and otherwise changes neither the step nor the buffer nor a schedule. -/
  digit : ∀ es₁ k es₂ value d, Opened es₁ k es₂ → (entered es₁ es₂).length < 4 →
    digitOf value = some d →
    (taken (onPage es₁ es₂) (.ir value) = [d] ↔ Completable (entered es₁ es₂ ++ [d])) ∧
      (taken (onPage es₁ es₂) (.ir value) ≠ [d] →
        (onPage es₁ (es₂ ++ [.ir value])).draft = (onPage es₁ es₂).draft)
  /-- The fourth digit stores the time for the bed, and for no other. -/
  store : ∀ es₁ k es₂ value d₁ d₂ d₃ d₄, Opened es₁ k es₂ → entered es₁ es₂ = [d₁, d₂, d₃] →
    taken (onPage es₁ es₂) (.ir value) = [d₄] →
    ∀ j, (onPage es₁ (es₂ ++ [.ir value])).timeSetupSettings j =
      if j = k then ofNat d₁ ++ ofNat d₂ ++ ":".toList ++ ofNat d₃ ++ ofNat d₄
      else (onPage es₁ es₂).timeSetupSettings j
  /-- If `LEFT` comes before that, no key has changed a schedule. -/
  abandoned : ∀ es₁ k es₂ pre value post, Opened es₁ k es₂ → (entered es₁ es₂).length < 4 →
    es₂ ++ [.ir keyLeft] = pre ++ .ir value :: post →
    (onPage es₁ (pre ++ [.ir value])).timeSetupSettings = (onPage es₁ pre).timeSetupSettings
  /-- No other key on any page changes a schedule. -/
  only : ∀ es value j,
    (after (es ++ [.ir value])).timeSetupSettings j ≠ (after es).timeSetupSettings j →
    (after es).menuLcd = .menuSetParameters ∧ (after es).stepSetTime = 3 ∧
      taken (after es) (.ir value) ≠ [] ∧ (after es).setParameters = j.menuPoliv
  /-- A digit on the page stays there and switches nothing. -/
  confined : ∀ es value d, (after es).menuLcd = .menuSetParameters → digitOf value = some d →
    (after (es ++ [.ir value])).menuLcd = .menuSetParameters ∧
      (after (es ++ [.ir value])).valves = (after es).valves

/-- **Typing a schedule is a transaction, confined to its bed.** -/
theorem entry_transactional : Transactional where
  closed es h := ⟨(after_closed h).1.step, (after_closed h).1.buffer⟩
  opened es h := by
    obtain ⟨es₁, k, es₂, rfl, hopened⟩ := opened_of_page es h
    have hbed := (opened_typing hopened).1.bed
    rw [opened_bed] at hbed
    exact ⟨es₁, k, es₂, rfl, hopened, hbed⟩
  left es₁ k es₂ h := by
    obtain ⟨htyping, -⟩ := opened_typing h
    refine ⟨fun e => ?_, ?_⟩
    · rw [onPage_snoc]
      exact typing_leaves htyping e
    · rw [onPage_snoc, step, key_of_left htyping.page]
      exact htyping.bed.trans (by rw [opened_bed])
  digit es₁ k es₂ value d h hlen hd := by
    refine ⟨taken_iff_completable h hlen hd, fun hnot => ?_⟩
    have hpage := opened_page h
    have hempty : taken (onPage es₁ es₂) (.ir value) = [] := by
      rw [taken_of_digit hpage hd] at hnot ⊢
      split_ifs with hret
      · rfl
      · exact absurd (if_neg hret) hnot
    rw [onPage_snoc, step_of_not_taken hpage hd hempty]
    rfl
  store es₁ k es₂ value d₁ d₂ d₃ d₄ h hent htaken j := by
    rw [opened_schedules h, hent, htaken]
    by_cases hj : j = k
    · rw [if_pos ⟨by simp, rfl, hj⟩, if_pos hj]
      simp [typed, typedFrom]
    · rw [if_neg (fun hc => hj hc.2.2), if_neg hj]
  abandoned _ _ _ _ _ _ h hlen hsplit := schedules_before_store h hlen hsplit
  only := changes_schedule
  confined es value d hpage hd := by
    rw [after, run_snoc, ← after]
    exact digit_confined hpage hd

end Polivunator.Keypad
