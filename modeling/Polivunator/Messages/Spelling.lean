import Polivunator.Messages.Schedules

/-!
# The two spellings of a time

The app formats a time with the phone's own conventions, so an hour below ten
may come with one digit or with two.  A `Message` is a bed, a time and how it is
spelled, and it carries the proof that only hours below ten are spelled short.

`setting_text` says what `receivesms` takes from a message: everything from one
spelled in full, and nothing from a short one.  For those it adds a zero, but in
front of the whole text instead of the time, and then does not go on to store.

`takesEffect_iff` says what that means for a list of messages.  The schedule of a
bed is the time of the last message spelled in full, so the messages have taken
effect if and only if a short message that comes last for its bed repeats what
the schedule already is.  `short_message` does not.
-/

namespace Polivunator

open Labelled WString

/-! ### Spelling -/

/-- `H:MM`, for an hour below ten. -/
def Time.shortText (t : Time) : WString :=
  ofNat t.hour ++ ':' :: ofNat (t.minute / 10) ++ ofNat (t.minute % 10)

/-- A message that sets a schedule. -/
structure Message where
  bed : Bed
  time : Time
  short : Bool
  short_lt : short = true → time.hour < 10

namespace Message

/-- The time, as it is spelled. -/
def spelled (m : Message) : WString := if m.short then m.time.shortText else m.time.text

/-- `k T`. -/
def text (m : Message) : WString := m.bed.number ++ ' ' :: m.spelled

/-- What a time is spelled with. -/
theorem notMem_spelled (m : Message) {c : Char} (hc : c ∉ "0123456789".toList) (hcolon : c ≠ ':') :
    c ∉ m.spelled := by
  have hh := m.time.hour_lt
  have hm := m.time.minute_lt
  have hdigit : ∀ d, d < 10 → c ≠ Nat.digitChar d := fun d hd => (digitChar_ne hc hd).symm
  rw [spelled]
  split_ifs with hshort
  · have hlt := m.short_lt hshort
    rw [Time.shortText, ofNat_digit hlt, ofNat_digit (by omega), ofNat_digit (by omega)]
    simp [hcolon, hdigit m.time.hour hlt, hdigit (m.time.minute / 10) (by omega),
      hdigit (m.time.minute % 10) (by omega)]
  · rw [Time.text, ofNat_digit (by omega), ofNat_digit (by omega), ofNat_digit (by omega),
      ofNat_digit (by omega)]
    simp [hcolon, hdigit (m.time.hour / 10) (by omega), hdigit (m.time.hour % 10) (by omega),
      hdigit (m.time.minute / 10) (by omega), hdigit (m.time.minute % 10) (by omega)]

theorem length_spelled (m : Message) : m.spelled.length = if m.short then 4 else 5 := by
  have hm := m.time.minute_lt
  rw [spelled]
  split_ifs with hshort
  · rw [Time.shortText, ofNat_digit (m.short_lt hshort), ofNat_digit (by omega),
      ofNat_digit (by omega)]
    rfl
  · exact m.time.length_text

theorem words_text (m : Message) : word m.text 0 = m.bed.number ∧ word m.text 1 = m.spelled := by
  have hnumber : ∀ k : Bed, ' ' ∉ k.number ∧ nul ∉ k.number := by
    intro k
    cases k <;> decide
  have hne : m.spelled ≠ [] := by
    intro h
    have hlen := m.length_spelled
    rw [h] at hlen
    split_ifs at hlen
  have hcut := Fields.cut_pair (hnumber m.bed).1 (m.notMem_spelled (c := ' ') (by decide) (by decide))
    hne
  refine ⟨?_, ?_⟩
  · rw [word, text, hcut]
    exact cStr_eq_self (hnumber m.bed).2
  · rw [word, text, hcut]
    exact cStr_eq_self (m.notMem_spelled (by decide) (by decide))

/-- **What is taken from a message.** -/
theorem setting_text (m : Message) :
    setting m.text = if m.short then none else some (m.bed, m.time.text) := by
  obtain ⟨hbed, htime⟩ := m.words_text
  rw [setting, hbed, htime, m.length_spelled, Bed.ofNumber?_eq_some.mpr rfl]
  cases hshort : m.short with
  | true => rfl
  | false =>
    rw [if_neg (by decide), Option.map_some, spelled, hshort]
    rfl

/-- A message that sets a schedule does nothing else. -/
theorem receivesms_text (m : Message) (s : State) :
    receivesms m.text s = receivesmsSchedule m.text s := by
  have hon : m.text ≠ "ON".toList := by
    rw [text]
    cases m.bed <;> simp [Bed.number]
  have hoff : m.text ≠ "OFF".toList := by
    rw [text]
    cases m.bed <;> simp [Bed.number]
  rw [receivesms, receivesmsSwitch, if_neg hon, if_neg hoff]

end Message

/-! ### A list of messages -/

/-- Hand the messages over in order. -/
def receiveMessages (s : State) (ms : List Message) : State :=
  run (fun s m => receivesms m.text s) s ms

/-- The last message for a bed. -/
def lastFor (k : Bed) (ms : List Message) : Option Message :=
  (ms.filter (fun m => decide (m.bed = k))).getLast?

/-- The last one that is spelled in full. -/
def lastFull (k : Bed) (ms : List Message) : Option Message :=
  (ms.filter (fun m => decide (m.bed = k) && !m.short)).getLast?

theorem receiveMessages_schedules (s : State) (ms : List Message) (k : Bed) :
    (receiveMessages s ms).timeSetupSettings k =
      (lastFull k ms).elim (s.timeSetupSettings k) (fun m => m.time.text) := by
  have hrun : (receiveMessages s ms).timeSetupSettings =
      run (Registers.store (fun m : Message => setting m.text)) s.timeSetupSettings ms :=
    run_map (fun s m => receivesms_schedules m.text s) s ms
  have hwrites : ∀ m : Message, Registers.writesTo (fun m : Message => setting m.text) k m =
      if decide (m.bed = k) && !m.short then some m.time.text else none := by
    intro m
    rw [Registers.writesTo, m.setting_text]
    cases m.short with
    | true => simp
    | false => simp
  rw [hrun, Registers.run_store, Registers.last_eq_filter hwrites, ← lastFull]
  cases lastFull k ms <;> rfl

/-- The messages change nothing but schedules. -/
theorem receiveMessages_frame {α : Type} {f : State → α}
    (hf : ∀ s t₁ t₂ t₃, f { s with
      timeSetupSettings1 := t₁, timeSetupSettings2 := t₂, timeSetupSettings3 := t₃ } = f s)
    (s : State) (ms : List Message) : f (receiveMessages s ms) = f s := by
  have keeps : ∀ (t : State) (m : Message), f t = f s → f (receivesms m.text t) = f s := by
    intro t m ht
    rw [m.receivesms_text, receivesmsSchedule_eq, hf, ht]
  exact run_invariant keeps ms rfl

/-- Every schedule is the time of the last message for its bed, and nothing else
has changed. -/
structure TakesEffect (s : State) (ms : List Message) : Prop where
  schedules : ∀ k, (receiveMessages s ms).timeSetupSettings k =
    (lastFor k ms).elim (s.timeSetupSettings k) (fun m => m.time.text)
  pins : (receiveMessages s ms).pins = s.pins
  timeSec : (receiveMessages s ms).timeSec = s.timeSec
  globalPoliv : (receiveMessages s ms).globalPoliv = s.globalPoliv

/-- A short message that comes last for its bed repeats the time of the last one
spelled in full or, if there is none, the schedule of before. -/
def Repeats (s : State) (ms : List Message) : Prop :=
  ∀ k m, lastFor k ms = some m → m.short = true →
    (lastFull k ms).elim (s.timeSetupSettings k) (fun m => m.time.text) = m.time.text

/-- If the last message is spelled in full, it is the last that is. -/
theorem lastFull_of_lastFor {k : Bed} {ms : List Message} :
    (lastFor k ms = none → lastFull k ms = none) ∧
      ∀ m, lastFor k ms = some m → m.short = false → lastFull k ms = some m := by
  have hfilter : lastFull k ms =
      ((ms.filter (fun m => decide (m.bed = k))).filter (fun m => !m.short)).getLast? := by
    rw [lastFull, List.filter_filter]
    simp only [Bool.and_comm]
  rw [hfilter, lastFor]
  refine ⟨fun h => ?_, fun m hm hshort => ?_⟩
  · rw [List.getLast?_eq_none_iff] at h
    rw [h]
    rfl
  · obtain ⟨ns, hns⟩ := List.getLast?_eq_some_iff.mp hm
    rw [hns, List.filter_append, List.filter_cons_of_pos (by rw [hshort]; rfl), List.filter_nil,
      List.getLast?_concat]

/-- **Messages take effect if and only if the short ones repeat.** -/
theorem takesEffect_iff (s : State) (ms : List Message) : TakesEffect s ms ↔ Repeats s ms := by
  constructor
  · intro h k m hm _
    have hstored := h.schedules k
    rw [receiveMessages_schedules, hm] at hstored
    exact hstored
  · intro h
    refine ⟨fun k => ?_, ?_, ?_, ?_⟩
    · rw [receiveMessages_schedules]
      cases hlast : lastFor k ms with
      | none => rw [lastFull_of_lastFor.1 hlast]
      | some m =>
        cases hshort : m.short with
        | true => exact h k m hlast hshort
        | false => rw [lastFull_of_lastFor.2 m hlast hshort]
    · exact receiveMessages_frame (fun _ _ _ _ => rfl) s ms
    · exact receiveMessages_frame (fun _ _ _ _ => rfl) s ms
    · exact receiveMessages_frame (fun _ _ _ _ => rfl) s ms

/-- `0 9:30`, when the schedule is `09:00`. -/
theorem short_message : ¬ ∀ (s : State) (ms : List Message), TakesEffect s ms := by
  intro h
  have hstored := (h setup
    [⟨.bed1, ⟨9, 30, by decide, by decide⟩, true, fun _ => by decide⟩]).schedules .bed1
  revert hstored
  decide

end Polivunator
