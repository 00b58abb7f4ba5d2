import Polivunator.Display.Fresh
import Polivunator.Sketch.Unseen

/-!
# Codes that are no button are not seen

A code that is no button makes `Menu()` draw once more.  `useless_codes` says that
this is all of it: leave such codes out of a run, and whenever `Menu()` returns
the globals are the same, the display shows the same and its light is the same.
A button that is held down sends such codes, and a damaged code is one.
-/

namespace Polivunator

open Labelled Display

/-- A pass without a code that is no button. -/
def Round.useful (r : Round) : Round :=
  { r with ir := r.ir.filter (fun value => decide (value ∈ buttons)) }

theorem filter_effective_of_not_ir {es : List Event} (h : ∀ e ∈ es, ∀ value, e ≠ .ir value) :
    es.filter effective = es := by
  rw [List.filter_eq_self]
  intro e he
  cases e with
  | ir value => exact absurd rfl (h _ he value)
  | _ => rfl

theorem useful_upToMenu (r : Round) : r.useful.upToMenu = r.upToMenu.filter effective := by
  have hclock : (r.clock.map Event.clock).toList.filter effective =
      (r.clock.map Event.clock).toList := by
    cases r.clock <;> rfl
  have hir : (r.ir.map Event.ir).toList.filter effective =
      ((r.ir.filter (fun value => decide (value ∈ buttons))).map Event.ir).toList := by
    cases r.ir with
    | none => rfl
    | some value =>
      by_cases hvalue : value ∈ buttons
      · simp [effective, hvalue, Option.filter]
      · simp [effective, hvalue, Option.filter]
  rw [Round.upToMenu, Round.upToMenu, List.filter_append, List.filter_append, hclock, hir]
  rfl

theorem useful_events (r : Round) : r.useful.events = r.events.filter effective := by
  have hrest : ∀ e ∈ r.middle ++ (if r.poliv then [Event.poliv] else []),
      ∀ value, e ≠ .ir value := by
    intro e he value
    simp only [Round.middle, List.mem_append, List.mem_map] at he
    rcases he with (⟨str, -, rfl⟩ | he) | he
    · simp
    · cases ht : r.temperature <;> simp [ht] at he
      rw [he]
      simp
    · split_ifs at he
      · rw [List.mem_singleton.mp he]
        simp
      · simp at he
  rw [Round.events, Round.upToPoliv, Round.events, Round.upToPoliv, List.append_assoc,
    List.append_assoc, List.filter_append, filter_effective_of_not_ir hrest, useful_upToMenu]
  rfl

theorem roundEvents_useful (rs : List Round) :
    roundEvents (rs.map Round.useful) = (roundEvents rs).filter effective := by
  induction rs with
  | nil => rfl
  | cons r rs ih =>
    rw [List.map_cons, roundEvents_cons, roundEvents_cons, List.filter_append, ih, useful_events]

/-- Drawings do not depend on the flag and the display. -/
theorem Alike.drawing {s t : State} (h : Alike s t) : drawing t = drawing s := by
  obtain ⟨b, lcd, rfl⟩ := h
  rfl

/-- **Codes that are no button are not seen.** -/
theorem useless_codes (rs : List Round) (r : Round) :
    Alike (after (roundEvents rs ++ r.upToMenu))
        (after (roundEvents (rs.map Round.useful) ++ r.useful.upToMenu)) ∧
      light (after (roundEvents (rs.map Round.useful) ++ r.useful.upToMenu)).lcd =
        light (after (roundEvents rs ++ r.upToMenu)).lcd ∧
      (isInfo (after (roundEvents rs ++ r.upToMenu)).menuLcd = false →
        screen (after (roundEvents (rs.map Round.useful) ++ r.useful.upToMenu)).lcd =
          screen (after (roundEvents rs ++ r.upToMenu)).lcd) := by
  have hshown := upToMenu_shown (rounds_current rs) r
  have hshown' := upToMenu_shown (rounds_current (rs.map Round.useful)) r.useful
  have halike : Alike (after (roundEvents rs ++ r.upToMenu))
      (after (roundEvents (rs.map Round.useful) ++ r.useful.upToMenu)) := by
    rw [roundEvents_useful, useful_upToMenu, ← List.filter_append]
    exact run_alike setup _
  refine ⟨halike, ?_, fun hinfo => ?_⟩
  · rw [hshown.lit, hshown'.lit]
    obtain ⟨b, lcd, heq⟩ := halike
    rw [heq]
    rfl
  · have hinfo' : isInfo (after (roundEvents (rs.map Round.useful) ++
        r.useful.upToMenu)).menuLcd = false := by
      obtain ⟨b, lcd, heq⟩ := halike
      rw [heq]
      exact hinfo
    rw [hshown.shown hinfo, hshown'.shown hinfo', halike.drawing]

end Polivunator
