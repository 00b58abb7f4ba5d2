import Polivunator.Valve.Refine

/-!
# Valves that stay open without a reason

A valve has a reason to be open when its own manual flag is set or its schedule
equals the clock.  `CheckTimeAvtopoliv` closes a valve whose minute is over,
but it returns before that when any bed is switched on by hand.  So a bed the
automatic mode has opened stays open past its minute when a person switches on
another bed in the meantime: `left_open` is such a run.

`reason_iff` says when this happens, in terms of what was done so far.  A tick
that finds nobody holding a bed by hand leaves no valve open without a reason.
Any other tick leaves open what the last tick that found nobody has opened, as
far as no person has switched the bed since; so these beds have to be due still.
-/

namespace Polivunator.Valve

open Labelled

/-- The valve of the bed is closed, or there is a reason for it to be open. -/
def Reason (s : State) (k : Bed) : Prop :=
  s.valve k = .high → s.timeSec k = true ∨ s.timeSetupSettings k = s.actualTime

/-- The commands of a run of `loop()` up to the tick of its last round. -/
def commandsBefore (rs : List Round) (r : Round) : List (Command Bed) :=
  commands (roundEvents rs ++ r.upToPoliv)

/-- The globals a round's tick finds. -/
def beforePoliv (rs : List Round) (r : Round) : State := after (roundEvents rs ++ r.upToPoliv)

/-- If by the commands so far somebody holds a bed by hand when the tick comes,
then every bed that was due at the last tick that found nobody, and that no
person has switched since, is still due. -/
def StillDue (rs : List Round) (r : Round) : Prop :=
  ¬ NobodyAfter (commandsBefore rs r) →
    ∀ k, LeftByTick k (commandsBefore rs r) →
      (beforePoliv rs r).timeSetupSettings k = (beforePoliv rs r).actualTime

theorem after_round {rs : List Round} {r : Round} (h : r.poliv = true) :
    after (roundEvents (rs ++ [r])) = step (beforePoliv rs r) .poliv := by
  rw [roundEvents_append, roundEvents_cons, roundEvents_nil, List.append_nil, Round.events, h,
    if_pos rfl, ← List.append_assoc, after, run_snoc]
  rfl

/-- A tick changes neither schedules nor the clock. -/
theorem poliv_dueAt (s : State) : dueAt (step s .poliv) = dueAt s := by
  rw [step, readPolivBlock_eq]
  rfl

theorem reason_iff_hold {s : State} {c : Controller Bed} (h : Refines s c) (k : Bed) :
    Reason s k ↔ (c.hold k = .automatic → dueAt s k = true) := by
  rw [Reason, h.valve_high_iff, h.timeSec_iff, dueAt, decide_eq_true_iff]
  cases c.hold k <;> simp

/-- **One tick.**  It leaves every open valve with a reason if and only if it
finds nobody, or the beds left open by the last tick that did still due. -/
theorem reason_after_round {rs : List Round} {r : Round} (h : r.poliv = true) :
    (∀ k, Reason (after (roundEvents (rs ++ [r]))) k) ↔ StillDue rs r := by
  have hr : Refines (beforePoliv rs r) (Controller.afterCommands (commandsBefore rs r)) :=
    after_refines _
  have hr' := step_refines _ _ .poliv hr
  rw [after_round h, StillDue]
  have hall : (∀ k, Reason (step (beforePoliv rs r) .poliv) k) ↔
      ∀ k, ((Controller.afterCommands (commandsBefore rs r)).act
        (.tick (dueAt (beforePoliv rs r)))).hold k = .automatic →
          dueAt (beforePoliv rs r) k = true := by
    refine forall_congr' fun k => ?_
    rw [reason_iff_hold hr' k, poliv_dueAt]
    rfl
  rw [hall]
  rw [← Controller.not_suspended_iff, not_not]
  by_cases hsus : (Controller.afterCommands (commandsBefore rs r)).Suspended
  · rw [Controller.tick_of_suspended hsus]
    simp [hsus, Controller.automatic_run, dueAt]
  · refine iff_of_true (fun k hk => ?_) (fun hs => absurd hs hsus)
    rw [Controller.tick_hold hsus] at hk
    by_contra hd
    simp [hd] at hk

/-- **Runs.**  In a run of `loop()` every tick leaves every open valve with a
reason if and only if every tick that comes while somebody holds a bed by hand
finds the beds still due that were due at the last tick that found nobody and
that no person has switched since. -/
theorem reason_iff (rs : List Round) :
    (∀ pre r post, rs = pre ++ r :: post → r.poliv = true →
      ∀ k, Reason (after (roundEvents (pre ++ [r]))) k) ↔
    (∀ pre r post, rs = pre ++ r :: post → r.poliv = true → StillDue pre r) := by
  constructor
  · intro h pre r post hrs hp
    exact (reason_after_round hp).mp (h pre r post hrs hp)
  · intro h pre r post hrs hp
    exact (reason_after_round hp).mpr (h pre r post hrs hp)

/-- The second bed's minute opens its valve, somebody switches on the first
bed, the minute passes, and the next tick leaves the second valve open. -/
def leftOpen : List Round :=
  [{ clock := some "10:00".toList, poliv := true }, { ir := some key1 },
    { clock := some "10:01".toList, poliv := true }]

theorem left_open :
    ¬ ∀ rs : List Round, ∀ pre r post, rs = pre ++ r :: post → r.poliv = true →
      ∀ k, Reason (after (roundEvents (pre ++ [r]))) k := by
  intro h
  have hreason := h leftOpen (leftOpen.take 2) { clock := some "10:01".toList, poliv := true } []
    rfl rfl .bed2 (by decide)
  revert hreason
  decide

end Polivunator.Valve
