import Polivunator.Valve.Refine

/-!
# Valves, flags and the history of commands

What the refinement gives about every run of the sketch.

* `flag_opens_valve`: a bed with its manual flag set has its valve open, after
  any list of events, and no event but a command of a person closes it.
* `tick_writes`, `valve_of_silent`: after a tick that found no flag set, and as
  long as no command follows it, a valve is open exactly when its bed was due.
* `flags_follow_commands`: the four flags are the closed forms of
  `Controller.lean`, read off the commands so far, whatever the pages did in
  between.  `Z` and `ON` are the same event to the globals, and so are `R` and
  `OFF`.
-/

namespace Polivunator.Valve

open Labelled

/-- A command that a person gives: anything but a tick. -/
def Command.isManual {κ : Type} : Command κ → Bool
  | .tick _ => false
  | _ => true

/-! ### Flags and valves -/

theorem flag_opens_valve (es : List Event) (k : Bed) (h : (after es).timeSec k = true) :
    (after es).valve k = .high := by
  have hr := after_refines es
  rw [hr.valve_high_iff, (hr.timeSec_iff k).mp h]
  decide

/-- An event that is not a command of a person leaves the manual flags alone. -/
theorem flags_of_not_manual (es : List Event) (e : Event)
    (h : ∀ c ∈ command (after es) e, c.isManual = false) :
    (step (after es) e).timeSec = (after es).timeSec ∧
      (step (after es) e).globalPoliv = (after es).globalPoliv := by
  have hr := after_refines es
  have hr' := step_refines _ _ e hr
  have hkeep : ∀ cs : List (Command Bed), (∀ c ∈ cs, c.isManual = false) →
      ∀ c : Controller Bed, (∀ k, (run Controller.act c cs).hold k = .manual ↔ c.hold k = .manual) ∧
        (run Controller.act c cs).global = c.global := by
    intro cs
    induction cs with
    | nil => intro _ c; exact ⟨fun _ => Iff.rfl, rfl⟩
    | cons d cs ih =>
      intro hcs c
      have hd := hcs d (List.mem_cons_self ..)
      obtain ⟨hm, hg⟩ := ih (fun x hx => hcs x (List.mem_cons_of_mem d hx)) (c.act d)
      cases d with
      | tick due =>
        refine ⟨fun k => ?_, ?_⟩
        · rw [run_cons, hm k, Controller.tick_manual]
        · rw [run_cons, hg, Controller.tick_global]
      | on => simp [Command.isManual] at hd
      | off => simp [Command.isManual] at hd
      | toggle j => simp [Command.isManual] at hd
  obtain ⟨hm, hg⟩ := hkeep _ h (Controller.afterCommands (commands es))
  refine ⟨?_, ?_⟩
  · funext k
    rw [Bool.eq_iff_iff, hr'.timeSec_iff, hm k, hr.timeSec_iff]
  · rw [hr'.globalPoliv, hg, hr.globalPoliv]

/-- A tick that finds no flag set writes every valve. -/
theorem tick_writes {s : State} (hg : s.globalPoliv = false) (h : ∀ k, s.timeSec k = false)
    (k : Bed) : (step s .poliv).valve k = .high ↔ s.timeSetupSettings k = s.actualTime := by
  have hv : (step s .poliv).valve k = autoLevel s (s.timeSetupSettings k) :=
    congrFun (congrArg Prod.fst (readPolivBlock_valves_of_auto hg h)) k
  rw [hv, autoLevel]
  split_ifs with hd <;> simp [hd]

/-- As long as no command comes, no valve moves. -/
theorem valve_of_silent {s : State} {fs : List Event} (h : history step command s fs = [])
    (k : Bed) : (run step s fs).valve k = s.valve k :=
  congrFun (congrArg Prod.fst (observe_run step_valves_of_silent fs h)) k

/-- **Valves and flags agree over whole runs.** -/
theorem valves_and_flags :
    (∀ es k, (after es).timeSec k = true → (after es).valve k = .high) ∧
    (∀ es e k, (∀ c ∈ command (after es) e, c.isManual = false) →
      (after es).timeSec k = true → (after (es ++ [e])).valve k = .high) ∧
    (∀ es fs, (after es).globalPoliv = false → (∀ k, (after es).timeSec k = false) →
      history step command (step (after es) .poliv) fs = [] →
      ∀ k, (after (es ++ .poliv :: fs)).valve k = .high ↔
        (after es).timeSetupSettings k = (after es).actualTime) := by
  refine ⟨flag_opens_valve, ?_, ?_⟩
  · intro es e k he hk
    refine flag_opens_valve (es ++ [e]) k ?_
    rw [after, run_snoc, ← after, (flags_of_not_manual es e he).1]
    exact hk
  · intro es fs hg hf hsilent k
    rw [after, run_append, run_cons, ← after, valve_of_silent hsilent k]
    exact tick_writes hg hf k

/-! ### The history of commands -/

/-- `Z` and `R` do nothing in the `switch` over the page. -/
theorem keyPage_of_switch {value : Nat} (h : value = keyZ ∨ value = keyR) (s : State) :
    keyPage value s = s := by
  unfold keyPage
  rcases h with rfl | rfl <;> split <;> rfl

theorem ir_keyZ (s : State) : step s (.ir keyZ) = { allOn s with menuReftach := true } := by
  rw [step, key, keyPage_of_switch (Or.inl rfl)]
  rfl

theorem ir_keyR (s : State) : step s (.ir keyR) = { allOff s with menuReftach := true } := by
  rw [step, key, keyPage_of_switch (Or.inr rfl)]
  rfl

theorem sms_on (s : State) :
    step s (.sms "ON".toList) = { allOn s with menuReftach := true } := rfl

theorem sms_off (s : State) :
    step s (.sms "OFF".toList) = { allOff s with menuReftach := true } := rfl

/-- **The flags are what the commands say.** -/
theorem flags_follow_commands :
    (∀ es k, (after es).timeSec k =
      (absoluteOn (commands es) ^^ decide (toggleCount k (commands es) % 2 = 1))) ∧
    (∀ es, (after es).globalPoliv = (absoluteOn (commands es) && !anyToggle (commands es))) ∧
    (∀ es e, (∀ c ∈ command (after es) e, c.isManual = false) →
      (step (after es) e).timeSec = (after es).timeSec ∧
        (step (after es) e).globalPoliv = (after es).globalPoliv) ∧
    (∀ s, step s (.ir keyZ) = step s (.sms "ON".toList) ∧
      step s (.ir keyR) = step s (.sms "OFF".toList)) ∧
    (∀ es, (after es).globalPoliv = true → ∀ k, (after es).timeSec k = true) := by
  refine ⟨?_, ?_, flags_of_not_manual, ?_, ?_⟩
  · intro es k
    have hr := after_refines es
    rw [← manualAfter, Bool.eq_iff_iff, hr.timeSec_iff, Controller.manual_run]
  · intro es
    rw [(after_refines es).globalPoliv, Controller.global_run]
  · intro s
    exact ⟨by rw [ir_keyZ, sms_on], by rw [ir_keyR, sms_off]⟩
  · intro es hg k
    have hr := after_refines es
    rw [hr.timeSec_iff]
    exact (Controller.afterCommands (commands es)).global_manual (by rw [← hr.globalPoliv, hg]) k

end Polivunator.Valve
