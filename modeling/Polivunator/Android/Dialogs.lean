import Polivunator.Android.MainActivity
import Polivunator.Messages.Spelling

/-!
# Which bed a time is sent for

A dialog that is confirmed sends the number in `m_sSendData`, which is that of
the button pressed last.  Two things come between the dialog and its bed.  The
second bed's button goes on into the case of the third one, so it opens a dialog
more and leaves the third bed's number behind: `second_button` is a run of two
actions.  And if buttons could be pressed under an open dialog, the number could
be that of a later press.

`addresses_iff` says there is nothing else, and that the second of the two does
not happen while a dialog keeps the buttons from being pressed.
`stored_by_firmware` follows a message to the schedule it is written to.
-/

namespace Polivunator.Android

open Labelled App

/-! ### What the user has done -/

/-- The button of a press. -/
def pressed : Action → Option Bed
  | .press k => some k
  | _ => none

theorem pressed_eq_some {a : Action} {k : Bed} (h : pressed a = some k) : a = .press k := by
  cases a with
  | press j => exact congrArg Action.press (Option.some.inj h)
  | _ => exact absurd h (by simp [pressed])

/-- The button pressed last. -/
def lastPress (as : List Action) : Option Bed := (as.filterMap pressed).getLast?

/-- The number of presses. -/
def presses (as : List Action) : Nat := (as.filterMap pressed).length

/-- What an action would do to the open dialogs if every press opened one. -/
def opens (ks : List Bed) : Action → List Bed
  | .press k => k :: ks
  | _ => ks.tail

/-- The buttons of the dialogs that would be open. -/
def openers (as : List Action) : List Bed := run opens [] as

theorem openers_snoc (as : List Action) (a : Action) :
    openers (as ++ [a]) = opens (openers as) a := run_snoc opens [] as a

theorem lastPress_snoc (as : List Action) (a : Action) :
    lastPress (as ++ [a]) = (pressed a).or (lastPress as) := by
  unfold lastPress
  rw [List.filterMap_append, List.getLast?_append]
  cases a <;> rfl

theorem presses_snoc (as : List Action) (a : Action) :
    presses (as ++ [a]) = presses as + (pressed a).toList.length := by
  unfold presses
  rw [List.filterMap_append, List.length_append]
  cases a <;> rfl

section Run

variable (formatDateTime : Time → WString) (now : Time)

theorem after_snoc (as : List Action) (a : Action) :
    after formatDateTime now (as ++ [a]) =
      step formatDateTime (after formatDateTime now as) a := run_snoc ..

theorem messages_snoc (as : List Action) (a : Action) :
    messages formatDateTime now (as ++ [a]) =
      messages formatDateTime now as ++ sent formatDateTime (after formatDateTime now as) a :=
  history_snoc ..

/-! ### One action -/

theorem step_second (app : App) :
    (step formatDateTime app (.press .bed2)).dialogs.length = app.dialogs.length + 2 := rfl

/-- The other two buttons. -/
theorem step_press {k : Bed} (h : k ≠ .bed2) (app : App) :
    step formatDateTime app (.press k) =
      ⟨{ app.activity with sendData := k.number },
        (k, ⟨app.activity.dateAndTime⟩) :: app.dialogs⟩ := by
  cases k with
  | bed1 => rfl
  | bed2 => exact absurd rfl h
  | bed3 => rfl

/-- A dialog is closed, if one is open. -/
theorem step_close {a : Action} (h : pressed a = none) (app : App) :
    (step formatDateTime app a).dialogs = app.dialogs.tail ∧
      (step formatDateTime app a).activity.sendData = app.activity.sendData := by
  cases a with
  | press k => exact absurd h (by simp [pressed])
  | cancel => exact ⟨rfl, rfl⟩
  | confirm time tell throws =>
    obtain ⟨activity, dialogs⟩ := app
    cases dialogs <;> exact ⟨rfl, rfl⟩

/-- A confirmed dialog sends one message at most, and then it was open. -/
theorem length_sent_le (app : App) (a : Action) :
    (sent formatDateTime app a).length + app.dialogs.tail.length ≤ app.dialogs.length := by
  obtain ⟨activity, dialogs⟩ := app
  cases dialogs with
  | nil => cases a <;> exact Nat.le_refl 0
  | cons d ds =>
    cases a with
    | press k => exact Nat.le_trans (Nat.zero_add _).le (Nat.le_succ _)
    | cancel => exact Nat.le_trans (Nat.zero_add _).le (Nat.le_succ _)
    | confirm time tell throws =>
      cases throws with
      | true => exact Nat.le_trans (Nat.zero_add _).le (Nat.le_succ _)
      | false => exact (Nat.add_comm 1 ds.length).le

/-! ### Without the second button -/

/-- What the app holds is what the user has done. -/
structure Tracks (app : App) (as : List Action) : Prop where
  dialogs : app.dialogs.map Prod.fst = openers as
  sendData : app.activity.sendData = (lastPress as).elim [] Bed.number

/-- **One action**, if it is not the second button. -/
theorem step_tracks {app : App} {as : List Action} {a : Action} (h : Tracks app as)
    (ha : a ≠ .press .bed2) : Tracks (step formatDateTime app a) (as ++ [a]) := by
  cases hp : pressed a with
  | none =>
    obtain ⟨hdialogs, hsend⟩ := step_close formatDateTime hp app
    refine ⟨?_, ?_⟩
    · rw [hdialogs, openers_snoc, List.map_tail, h.dialogs]
      cases a with
      | press k => exact absurd hp (by simp [pressed])
      | _ => rfl
    · rw [hsend, h.sendData, lastPress_snoc, hp, Option.none_or]
  | some k =>
    obtain rfl := pressed_eq_some hp
    rw [step_press formatDateTime (fun hk => ha (hk ▸ rfl)) app]
    refine ⟨?_, ?_⟩
    · rw [openers_snoc, List.map_cons, h.dialogs]
      rfl
    · rw [lastPress_snoc]
      rfl

/-- **A run**, and what it has sent. -/
theorem after_tracks {as : List Action} (h : .press .bed2 ∉ as) :
    Tracks (after formatDateTime now as) as ∧
      (messages formatDateTime now as).length + (after formatDateTime now as).dialogs.length ≤
        presses as := by
  induction as using List.reverseRecOn with
  | nil => exact ⟨⟨rfl, rfl⟩, Nat.le_refl 0⟩
  | append_singleton as a ih =>
    rw [List.mem_append, not_or, List.mem_singleton] at h
    obtain ⟨htracks, hcount⟩ := ih h.1
    have ha : a ≠ .press .bed2 := fun he => h.2 he.symm
    rw [after_snoc, messages_snoc, presses_snoc, List.length_append]
    refine ⟨step_tracks formatDateTime htracks ha, ?_⟩
    have hsent := length_sent_le formatDateTime (after formatDateTime now as) a
    cases hp : pressed a with
    | none =>
      rw [(step_close formatDateTime hp _).1]
      omega
    | some k =>
      obtain rfl := pressed_eq_some hp
      rw [step_press formatDateTime (fun hk => ha (hk ▸ rfl))]
      show _ + 0 + (_ + 1) ≤ _ + 1
      omega

/-! ### The bed a message is for -/

/-- The app addresses the bed the user chose. -/
structure Addresses (as : List Action) : Prop where
  /-- A press opens one dialog. -/
  opens : ∀ pre k post, as = pre ++ .press k :: post →
    ∃ d, (after formatDateTime now (pre ++ [.press k])).dialogs =
      (k, d) :: (after formatDateTime now pre).dialogs
  /-- What a dialog sends is the number of its bed and the time chosen. -/
  message : ∀ pre time tell throws post k d ds, as = pre ++ .confirm time tell throws :: post →
    (after formatDateTime now pre).dialogs = (k, d) :: ds →
    ∀ sms ∈ sent formatDateTime (after formatDateTime now pre) (.confirm time tell throws),
      sms.message = k.number ++ " ".toList ++ formatDateTime time
  /-- There are no more messages than presses. -/
  count : ∀ pre post, as = pre ++ post →
    (messages formatDateTime now pre).length ≤ presses pre

/-- The second button is never pressed, and a dialog that sends a message was
opened by the button pressed last. -/
structure Careful (as : List Action) : Prop where
  noSecond : .press .bed2 ∉ as
  ownDialog : ∀ pre time tell post k, as = pre ++ .confirm time tell false :: post →
    (openers pre).head? = some k → lastPress pre = some k

/-- A button is only pressed while no dialog is open. -/
def Modal (as : List Action) : Prop :=
  ∀ pre k post, as = pre ++ .press k :: post → (after formatDateTime now pre).dialogs = []

variable {formatDateTime now}

/-- The second button opens two dialogs. -/
theorem Addresses.noSecond {as : List Action} (h : Addresses formatDateTime now as) :
    .press .bed2 ∉ as := by
  intro hmem
  obtain ⟨pre, post, rfl⟩ := List.append_of_mem hmem
  obtain ⟨d, hd⟩ := h.opens pre .bed2 post rfl
  have htwo := step_second formatDateTime (after formatDateTime now pre)
  rw [after_snoc] at hd
  rw [hd, List.length_cons] at htwo
  omega

/-- What is sent when a dialog is open. -/
theorem sent_open {app : App} {k : Bed} {d : TimePickerDialog} {ds : List (Bed × TimePickerDialog)}
    (h : app.dialogs = (k, d) :: ds) (time : Time) (tell : WString) (throws : Bool) :
    sent formatDateTime app (.confirm time tell throws) =
      if throws then []
      else [⟨tell, app.activity.sendData ++ " ".toList ++ formatDateTime time⟩] := by
  obtain ⟨activity, dialogs⟩ := app
  cases h
  rfl

/-- The number is that of the button pressed last. -/
theorem number_of_lastPress {o : Option Bed} {k : Bed}
    (h : o.elim [] Bed.number = k.number) : o = some k := by
  cases o with
  | none => exact absurd h (by cases k <;> decide)
  | some j => exact congrArg some (Bed.number_inj h)

theorem Addresses.careful {as : List Action} (h : Addresses formatDateTime now as) :
    Careful as := by
  refine ⟨h.noSecond, fun pre time tell post k hsplit hk => ?_⟩
  have hpre : .press .bed2 ∉ pre := fun hm => h.noSecond (by rw [hsplit]; exact List.mem_append_left _ hm)
  obtain ⟨htracks, -⟩ := after_tracks formatDateTime now hpre
  rw [← htracks.dialogs] at hk
  cases hdialogs : (after formatDateTime now pre).dialogs with
  | nil => simp [hdialogs] at hk
  | cons kd ds =>
    obtain ⟨j, d⟩ := kd
    rw [hdialogs] at hk
    obtain rfl : j = k := Option.some.inj hk
    have hmessage := h.message pre time tell false post j d ds hsplit hdialogs
    rw [sent_open hdialogs] at hmessage
    have heq := hmessage _ (List.mem_singleton_self _)
    rw [List.append_cancel_right_eq, List.append_cancel_right_eq, htracks.sendData] at heq
    exact number_of_lastPress heq

theorem Careful.addresses {as : List Action} (h : Careful as) :
    Addresses formatDateTime now as := by
  have hfirst : ∀ {pre post}, as = pre ++ post → .press .bed2 ∉ pre := by
    intro pre post hsplit hm
    exact h.noSecond (by rw [hsplit]; exact List.mem_append_left _ hm)
  refine ⟨?_, ?_, ?_⟩
  · intro pre k post hsplit
    have hk : k ≠ .bed2 := by
      rintro rfl
      exact h.noSecond (by rw [hsplit]; simp)
    rw [after_snoc, step_press formatDateTime hk]
    exact ⟨_, rfl⟩
  · intro pre time tell throws post k d ds hsplit hdialogs sms hsms
    obtain ⟨htracks, -⟩ := after_tracks formatDateTime now (hfirst hsplit)
    rw [sent_open hdialogs] at hsms
    cases throws with
    | true => exact absurd hsms List.not_mem_nil
    | false =>
      have hk : (openers pre).head? = some k := by
        rw [← htracks.dialogs, hdialogs]
        rfl
      have hlast := h.ownDialog pre time tell post k hsplit hk
      rw [List.mem_singleton.mp hsms, htracks.sendData, hlast]
      rfl
  · intro pre post hsplit
    obtain ⟨-, hcount⟩ := after_tracks formatDateTime now (hfirst hsplit)
    exact Nat.le_of_add_right_le hcount

/-- Under a dialog no button is pressed, so the dialog is that of the last one. -/
theorem Modal.openers {as : List Action} (hmodal : Modal formatDateTime now as)
    (h : .press .bed2 ∉ as) :
    openers as = [] ∨ ∃ k, openers as = [k] ∧ lastPress as = some k := by
  induction as using List.reverseRecOn with
  | nil => exact Or.inl rfl
  | append_singleton as a ih =>
    rw [List.mem_append, not_or] at h
    have hpre : Modal formatDateTime now as := fun pre k post hsplit =>
      hmodal pre k (post ++ [a]) (by rw [hsplit, List.append_assoc, List.cons_append])
    rw [openers_snoc, lastPress_snoc]
    cases a with
    | press k =>
      have hclosed := hmodal as k [] rfl
      have htracks := (after_tracks formatDateTime now h.1).1.dialogs
      rw [hclosed] at htracks
      refine Or.inr ⟨k, ?_, rfl⟩
      rw [← htracks]
      rfl
    | _ =>
      refine Or.inl ?_
      rcases ih hpre h.1 with hnone | ⟨k, hone, -⟩
      · rw [hnone]
        rfl
      · rw [hone]
        rfl

theorem Modal.careful {as : List Action} (hmodal : Modal formatDateTime now as)
    (h : .press .bed2 ∉ as) : Careful as := by
  refine ⟨h, fun pre time tell post k hsplit hk => ?_⟩
  subst hsplit
  have hpre : Modal formatDateTime now pre := fun pre' k post' hsplit =>
    hmodal pre' k (post' ++ .confirm time tell false :: post)
      (by rw [hsplit, List.append_assoc, List.cons_append])
  rcases hpre.openers (fun hm => h (List.mem_append_left _ hm)) with hnone | ⟨j, hone, hlast⟩
  · rw [hnone] at hk
    exact absurd hk (by simp)
  · rw [hone] at hk
    rw [hlast]
    exact hk

/-- **Messages go where the user chose** if and only if the second button is not
used and a dialog that sends was opened by the last press; and if dialogs keep
the buttons from being pressed, if and only if the second button is not used. -/
theorem addresses_iff (formatDateTime : Time → WString) (now : Time) (as : List Action) :
    (Addresses formatDateTime now as ↔ Careful as) ∧
      (Modal formatDateTime now as → (Addresses formatDateTime now as ↔ .press .bed2 ∉ as)) :=
  ⟨⟨Addresses.careful, Careful.addresses⟩,
    fun hmodal => ⟨Addresses.noSecond, fun h => (hmodal.careful h).addresses⟩⟩

/-- One dialog, opened and confirmed. -/
theorem modal_pair (k : Bed) (time : Time) (tell : WString) (throws : Bool) :
    Modal formatDateTime now [.press k, .confirm time tell throws] := by
  intro pre j post hsplit
  cases pre with
  | nil => rfl
  | cons a pre =>
    have htail := (List.cons.inj hsplit).2
    rcases List.append_eq_singleton_iff.mp htail.symm with ⟨-, hpress⟩ | ⟨-, hpress⟩
    · exact absurd (List.cons.inj hpress).1 (by simp)
    · exact absurd hpress (by simp)

def halfPastNine : Time := ⟨9, 30, by decide, by decide⟩

theorem addresses_iff_first :
    (Addresses Time.text halfPastNine [.press .bed1, .confirm halfPastNine [] false] ↔
      Careful [.press .bed1, .confirm halfPastNine [] false]) ∧
    (Addresses Time.text halfPastNine [.press .bed1, .confirm halfPastNine [] false] ↔
      .press .bed2 ∉ [Action.press .bed1, .confirm halfPastNine [] false]) :=
  ⟨(addresses_iff _ _ _).1, (addresses_iff _ _ _).2 (modal_pair _ _ _ _)⟩

/-- The second button, and a confirmation. -/
theorem second_button :
    ¬ ∀ (formatDateTime : Time → WString) (now : Time) (as : List Action),
      Modal formatDateTime now as → Addresses formatDateTime now as := by
  intro h
  have haddresses := h Time.text halfPastNine [.press .bed2, .confirm halfPastNine [] false]
    (modal_pair _ _ _ _)
  exact haddresses.noSecond (List.mem_cons_self ..)

/-! ### From the app to the schedule -/

/-- **A careful run sets the schedules the user chose**, if the phone spells a
time in full: what a dialog sends is stored for the bed of its button. -/
theorem stored_by_firmware {as : List Action} (h : Careful as) {pre post : List Action}
    {time : Time} {tell : WString} {throws : Bool} {k : Bed} {d : TimePickerDialog}
    {ds : List (Bed × TimePickerDialog)} (hsplit : as = pre ++ .confirm time tell throws :: post)
    (hdialogs : (after Time.text now pre).dialogs = (k, d) :: ds) {sms : Sms}
    (hsms : sms ∈ sent Time.text (after Time.text now pre) (.confirm time tell throws))
    (s : State) :
    (receivesms sms.message s).timeSetupSettings =
      Function.update s.timeSetupSettings k time.text := by
  have haddresses : Addresses Time.text now as := h.addresses
  have hmessage := haddresses.message pre time tell throws post k d ds hsplit hdialogs sms hsms
  have hset := (⟨k, time, false, fun hf => absurd hf (by decide)⟩ : Message).setting_text
  have htext : sms.message =
      (⟨k, time, false, fun hf => absurd hf (by decide)⟩ : Message).text := by
    rw [hmessage, List.append_assoc]
    rfl
  rw [receivesms_schedules, htext]
  exact Registers.store_some _ hset

end Run

end Polivunator.Android
