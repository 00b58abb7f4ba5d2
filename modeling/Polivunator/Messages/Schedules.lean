import Polivunator.Keypad.Entry
import Polivunator.Library.Registers
import Polivunator.Messages.GetValue

/-!
# What a message does to the schedules

`receivesms` takes the first two words of a text: the number of a bed and what
is written into its schedule.  `receivesms_schedules` says it is a write to one
of three registers, or none: a text that names no bed is no write, and one whose
second word has four characters is none either.

What is written is not looked at.  `keepsTimes_iff` says when schedules that
are times stay times, and `stores_nothing` is a text of one character that
empties one.
-/

namespace Polivunator

open Labelled WString

/-! ### Words -/

/-- The number of a bed in a message. -/
def Bed.number : Bed → WString
  | .bed1 => "0".toList
  | .bed2 => "1".toList
  | .bed3 => "2".toList

theorem Bed.number_inj {j k : Bed} (h : j.number = k.number) : j = k := by
  revert h
  cases j <;> cases k <;> decide

/-- A word of a text: what stands between spaces, read as a C string.  A space
that ends the text belongs to the last word. -/
def word (str : WString) (i : Nat) : WString := cStr ((Fields.cut ' ' str).getD i [])

/-- The bed a word names. -/
def Bed.ofNumber? (w : WString) : Option Bed :=
  if w = "0".toList then some .bed1
  else if w = "1".toList then some .bed2
  else if w = "2".toList then some .bed3
  else none

theorem Bed.ofNumber?_eq_some {w : WString} {k : Bed} :
    Bed.ofNumber? w = some k ↔ w = k.number := by
  constructor
  · intro h
    unfold Bed.ofNumber? at h
    split_ifs at h with h1 h2 h3
    · rw [h1, ← Option.some.inj h]
      rfl
    · rw [h2, ← Option.some.inj h]
      rfl
    · rw [h3, ← Option.some.inj h]
      rfl
  · rintro rfl
    cases k <;> decide

/-- What a text writes, and to which bed. -/
def setting (str : WString) : Option (Bed × WString) :=
  if (word str 1).length = 4 then none
  else (Bed.ofNumber? (word str 0)).map (fun k => (k, word str 1))

theorem receivesmsSwitch_schedules (str : WString) (s : State) :
    (receivesmsSwitch str s).timeSetupSettings = s.timeSetupSettings := by
  unfold receivesmsSwitch
  split_ifs
  · rw [← allOn_schedules s]
    funext k
    cases k <;> rfl
  · rw [← allOff_schedules s]
    funext k
    cases k <;> rfl
  · rfl

theorem receivesmsSchedule_eq_setting (str : WString) (s : State) :
    receivesmsSchedule str s =
      (setting str).elim s (fun w => s.setTimeSetupSettings w.1 w.2) := by
  have hword : ∀ i, getValue str ' ' i = word str i := fun i => getValue_eq str ' ' i
  unfold receivesmsSchedule setting Bed.ofNumber?
  simp only [hword]
  split_ifs <;> rfl

/-- **A message writes one schedule, or none.** -/
theorem receivesms_schedules (str : WString) (s : State) :
    (receivesms str s).timeSetupSettings = Registers.store setting s.timeSetupSettings str := by
  rw [receivesms, receivesmsSchedule_eq_setting]
  cases hset : setting str with
  | none =>
    rw [Registers.store_none _ hset]
    exact receivesmsSwitch_schedules str s
  | some w =>
    rw [Registers.store_some _ hset]
    funext j
    show ((receivesmsSwitch str s).setTimeSetupSettings w.1 w.2).timeSetupSettings j = _
    rw [State.setTimeSetupSettings_apply, receivesmsSwitch_schedules, Function.update_apply]

theorem setting_eq_some {str w : WString} {k : Bed} :
    setting str = some (k, w) ↔
      word str 0 = k.number ∧ (word str 1).length ≠ 4 ∧ w = word str 1 := by
  unfold setting
  split_ifs with hlen
  · exact iff_of_false (by simp) (fun h => h.2.1 hlen)
  · rw [Option.map_eq_some_iff]
    constructor
    · rintro ⟨j, hj, heq⟩
      obtain ⟨rfl, rfl⟩ := Prod.mk.inj heq
      exact ⟨Bed.ofNumber?_eq_some.mp hj, hlen, rfl⟩
    · rintro ⟨hk, -, rfl⟩
      exact ⟨k, Bed.ofNumber?_eq_some.mpr hk, rfl⟩

/-! ### Schedules that are times -/

/-- A 24-hour time, written `HH:MM`. -/
def IsTime (w : WString) : Prop := ∃ t : Time, w = t.text

theorem IsTime.length {w : WString} (h : IsTime w) : w.length = 5 := by
  obtain ⟨t, rfl⟩ := h
  exact t.length_text

/-- The text gives a bed a time. -/
def GivesTime (str : WString) : Prop := ∃ k : Bed, word str 0 = k.number ∧ IsTime (word str 1)

/-- The text names no bed, or has a time or a word of four characters for it. -/
def Harmless (str : WString) : Prop :=
  ∀ k : Bed, word str 0 = k.number → (word str 1).length = 4 ∨ IsTime (word str 1)

/-- The schedules are still times, and those from before if the text does not
give a bed a time. -/
structure KeepsTimes (str : WString) (s : State) : Prop where
  times : ∀ k, IsTime ((receivesms str s).timeSetupSettings k)
  unchanged : ¬ GivesTime str → (receivesms str s).timeSetupSettings = s.timeSetupSettings

/-- **Schedules stay times if and only if the text is harmless.** -/
theorem keepsTimes_iff {str : WString} {s : State} (h : ∀ k, IsTime (s.timeSetupSettings k)) :
    KeepsTimes str s ↔ Harmless str := by
  constructor
  · intro hkeeps k hk
    by_cases hlen : (word str 1).length = 4
    · exact Or.inl hlen
    · have hset := setting_eq_some.mpr ⟨hk, hlen, rfl⟩
      have hstored := hkeeps.times k
      rw [receivesms_schedules, Registers.store_some _ hset, Function.update_self] at hstored
      exact Or.inr hstored
  · intro hharmless
    cases hset : setting str with
    | none =>
      have hsame : (receivesms str s).timeSetupSettings = s.timeSetupSettings := by
        rw [receivesms_schedules, Registers.store_none _ hset]
      exact ⟨fun k => hsame ▸ h k, fun _ => hsame⟩
    | some w =>
      obtain ⟨k, time⟩ := w
      obtain ⟨hk, hlen, rfl⟩ := setting_eq_some.mp hset
      have htime : IsTime (word str 1) := (hharmless k hk).resolve_left hlen
      refine ⟨fun j => ?_, fun hno => absurd ⟨k, hk, htime⟩ hno⟩
      rw [receivesms_schedules, Registers.store_some _ hset, Function.update_apply]
      split_ifs
      · exact htime
      · exact h j

theorem setup_times : ∀ k, IsTime (setup.timeSetupSettings k) := by
  intro k
  cases k with
  | bed1 => exact ⟨⟨9, 0, by decide, by decide⟩, by decide⟩
  | bed2 => exact ⟨⟨10, 0, by decide, by decide⟩, by decide⟩
  | bed3 => exact ⟨⟨11, 0, by decide, by decide⟩, by decide⟩

theorem keepsTimes_iff_setup :
    KeepsTimes "0 9:30".toList setup ↔ Harmless "0 9:30".toList := keepsTimes_iff setup_times

/-- The number of a bed and nothing else. -/
theorem stores_nothing :
    ¬ ∀ (str : WString) (s : State), (∀ k, IsTime (s.timeSetupSettings k)) → KeepsTimes str s := by
  intro h
  have hlength := ((h "0".toList setup setup_times).times .bed1).length
  revert hlength
  decide

end Polivunator
