import Polivunator.Valve.History

/-!
# Switching everything off

`OFF` and the button `R` close every valve and clear every flag.  With no flag
set the automatic mode is in charge again, so the next tick opens the beds whose
minute it is: `opens_again` is a run in which that comes right after `OFF`.

`off_effective` says this is all that can happen.  As long as nobody switches
on, no schedule changes and the clock stands, a bed that is not due stays
closed, and one that is due does until the next tick, which opens it.
-/

namespace Polivunator.Valve

open Labelled

/-- `OFF` and `R`. -/
def SwitchesOff (e : Event) : Prop := e = .sms "OFF".toList ∨ e = .ir keyR

/-- Nobody switches on, no schedule changes and the clock stands. -/
structure Undisturbed (s : State) (fs : List Event) : Prop where
  commands : ∀ c ∈ history step command s fs, c.switchesOn = false
  schedules : ∀ pre post, fs = pre ++ post →
    (run step s pre).timeSetupSettings = s.timeSetupSettings
  clock : ∀ pre post, fs = pre ++ post → (run step s pre).actualTime = s.actualTime

theorem Undisturbed.dueAt {s : State} {fs : List Event} (h : Undisturbed s fs)
    {pre post : List Event} (hsplit : fs = pre ++ post) :
    dueAt (run step s pre) = Valve.dueAt s := by
  funext k
  rw [Valve.dueAt, h.schedules pre post hsplit, h.clock pre post hsplit]
  rfl

/-- Every valve is closed. -/
theorem hold_of_switchesOff (es : List Event) {e : Event} (h : SwitchesOff e) (k : Bed) :
    (Controller.afterCommands (commands (es ++ [e]))).hold k = .closed := by
  have hoff : command (after es) e = [.off] := by
    rcases h with rfl | rfl <;> rfl
  rw [commands, history_snoc, ← commands, ← after, hoff, Controller.afterCommands_snoc]
  rfl

/-- After the command and undisturbed events, whatever they were. -/
theorem refines_undisturbed (es : List Event) (e : Event) (fs : List Event) :
    Refines (after (es ++ e :: fs))
      (run Controller.act (Controller.afterCommands (commands (es ++ [e])))
        (history step command (after (es ++ [e])) fs)) := by
  rw [List.append_cons, after, run_append, ← after]
  exact run_simulation step_refines fs (after_refines (es ++ [e]))

/-- The ticks among them. -/
theorem tick_of_mem_history {s : State} {fs : List Event} {due : Bed → Bool}
    (h : .tick due ∈ history step command s fs) :
    ∃ pre post, fs = pre ++ .poliv :: post ∧ due = dueAt (run step s pre) := by
  obtain ⟨pre, f, post, hsplit, hf⟩ := mem_history step command h
  cases f with
  | poliv =>
    have heq : due = dueAt (run step s pre) := by
      simpa [command] using hf
    exact ⟨pre, post, hsplit, heq⟩
  | ir value =>
    rw [command, keyCommand] at hf
    split_ifs at hf
    · simp at hf
    · simp at hf
    · cases homeBed value <;> simp at hf
    · simp at hf
  | sms str =>
    rw [command, smsCommand] at hf
    split_ifs at hf <;> simp at hf
  | _ => exact absurd hf List.not_mem_nil

/-- What switching everything off does to the valves. -/
structure OffEffective : Prop where
  /-- Every valve is closed. -/
  low : ∀ es e, SwitchesOff e → ∀ k, (after (es ++ [e])).valve k = .low
  /-- It stays closed if its bed is not due, and otherwise until a tick. -/
  stays : ∀ es e fs k, SwitchesOff e → Undisturbed (after (es ++ [e])) fs →
    (after (es ++ [e])).timeSetupSettings k ≠ (after (es ++ [e])).actualTime ∨ .poliv ∉ fs →
    (after (es ++ e :: fs)).valve k = .low
  /-- The tick opens it. -/
  opens : ∀ es e fs k, SwitchesOff e → Undisturbed (after (es ++ [e])) fs →
    (after (es ++ [e])).timeSetupSettings k = (after (es ++ [e])).actualTime →
    (after (es ++ e :: (fs ++ [.poliv]))).valve k = .high

/-- **Switching everything off is effective** until the next tick, and after it
for every bed that is not due. -/
theorem off_effective : OffEffective where
  low es e h k := by
    rw [(after_refines (es ++ [e])).valve, hold_of_switchesOff es h]
    rfl
  stays es e fs k h hfs hcase := by
    have hclosed := hold_of_switchesOff es h
    have hnot : ∀ due, .tick due ∈ history step command (after (es ++ [e])) fs →
        due k = false := by
      intro due hdue
      obtain ⟨pre, post, hsplit, rfl⟩ := tick_of_mem_history hdue
      rw [hfs.dueAt hsplit]
      rcases hcase with hne | hno
      · exact decide_eq_false hne
      · exact absurd (by rw [hsplit]; simp) hno
    rw [(refines_undisturbed es e fs).valve,
      Controller.run_closed hfs.commands hnot (fun j => by rw [hclosed j]; decide) (hclosed k)]
    rfl
  opens es e fs k h hfs hdue := by
    have hclosed := hold_of_switchesOff es h
    have hr := refines_undisturbed es e fs
    have hfree : ∀ j, (Controller.afterCommands (commands (es ++ [e]))).hold j ≠ .manual := by
      intro j
      rw [hclosed j]
      decide
    obtain ⟨hflags, hglobal⟩ := hr.flags_of_not_manual (Controller.run_not_manual hfs.commands hfree)
    have hsame : (after (es ++ e :: fs)).timeSetupSettings k =
        (after (es ++ e :: fs)).actualTime := by
      rw [List.append_cons, after, run_append, ← after,
        hfs.schedules fs [] (List.append_nil fs).symm, hfs.clock fs [] (List.append_nil fs).symm]
      exact hdue
    rw [← List.cons_append, ← List.append_assoc, after, run_snoc, ← after]
    exact (tick_writes hglobal hflags k).mpr hsame

/-- `OFF` in the minute of the first bed, and a tick. -/
theorem opens_again :
    ¬ ∀ es e fs, SwitchesOff e → Undisturbed (after (es ++ [e])) fs →
      ∀ k, (after (es ++ e :: fs)).valve k = .low := by
  intro h
  have hlow := h [.clock "09:00".toList] (.sms "OFF".toList) [.poliv] (Or.inl rfl)
    ⟨by decide, fun pre post hsplit => ?_, fun pre post hsplit => ?_⟩ .bed1
  · revert hlow
    decide
  · rcases List.append_eq_singleton_iff.mp hsplit.symm with ⟨rfl, -⟩ | ⟨rfl, -⟩ <;> rfl
  · rcases List.append_eq_singleton_iff.mp hsplit.symm with ⟨rfl, -⟩ | ⟨rfl, -⟩ <;> rfl

end Polivunator.Valve
