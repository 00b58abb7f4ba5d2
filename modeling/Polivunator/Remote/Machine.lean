import Polivunator.Remote.Turns
import Polivunator.Sketch.Unseen

/-!
# The remote control and the sketch

The receiver and the globals together: `Key()` asks the receiver, acts on the
code it gets and calls `resume`, while interrupts and everything else the loop
does come in between.

`exists_events` says that such a run is a run of events in which every signal
of a button is one `Key()` with its code, in order, and in which a signal whose
code is no button, such as those of a button held down, does nothing.  The
signals are those of the library's own sender, one turn each.
-/

namespace Polivunator.Remote

open Labelled Irparams

/-- The receiver and the globals. -/
structure Machine where
  irrecv : Irrecv
  state : State

/-- What can happen to them.  `Key()` is the moment `decode` and, if there was a
code, the moment `resume` after it; the other events are those of the loop. -/
inductive Act
  | moment (m : Moment)
  | event (e : Event)

def Act.moment? : Act → Option Moment
  | .moment m => some m
  | .event _ => none

def Act.event? : Act → Option Event
  | .moment _ => none
  | .event e => some e

section Others

variable (others : DecodeResults → Bool × DecodeResults)

/-- What the globals go through. -/
def Machine.events (k : Machine) : Act → List Event
  | .moment m => (k.irrecv.answer others m).map fun code => .ir code.toNat
  | .event e => [e]

def Machine.step (k : Machine) (a : Act) : Machine where
  irrecv :=
    match a with
    | .moment m => k.irrecv.step others m
    | .event _ => k.irrecv
  state := run Polivunator.step k.state (k.events others a)

/-- The globals go through these events. -/
theorem Machine.run_state (k : Machine) (acts : List Act) :
    (run (Machine.step others) k acts).state =
      run Polivunator.step k.state (history (Machine.step others) (Machine.events others) k acts) := by
  have hstep : ∀ (k : Machine) (s : State) (a : Act), k.state = s →
      (k.step others a).state = run Polivunator.step s (k.events others a) := by
    rintro k s a rfl
    rfl
  exact run_simulation hstep acts rfl

/-! ### The receiver on its own -/

/-- The receiver does not see what else the loop does. -/
def Irrecv.act (r : Irrecv) : Act → Irrecv
  | .moment m => r.step others m
  | .event _ => r

def Irrecv.events (r : Irrecv) : Act → List Event
  | .moment m => (r.answer others m).map fun code => .ir code.toNat
  | .event e => [e]

theorem Machine.history_eq (k : Machine) (acts : List Act) :
    history (Machine.step others) (Machine.events others) k acts =
      history (Irrecv.act others) (Irrecv.events others) k.irrecv acts := by
  refine history_map (f := Machine.irrecv) ?_ ?_ k acts
  · intro k a
    cases a <;> rfl
  · intro k a
    cases a <;> rfl

/-- The codes among the events are those the receiver answers. -/
theorem Irrecv.history_ir (r : Irrecv) {acts : List Act}
    (hacts : ∀ e, .event e ∈ acts → e.ir? = none) :
    (history (Irrecv.act others) (Irrecv.events others) r acts).filterMap Event.ir? =
      (history (Irrecv.step others) (Irrecv.answer others) r (acts.filterMap Act.moment?)).map
        BitVec.toNat := by
  induction acts generalizing r with
  | nil => rfl
  | cons a acts ih =>
    have hrest := fun r => ih r fun e he => hacts e (List.mem_cons_of_mem a he)
    rw [history_cons, List.filterMap_append, hrest]
    cases a with
    | moment m =>
      rw [List.filterMap_cons_some (show Act.moment? (.moment m) = some m from rfl), history_cons,
        List.map_append]
      congr 1
      rw [Irrecv.events, List.filterMap_map, ← List.filterMap_eq_map]
      rfl
    | event e =>
      have hnone := hacts e (List.mem_cons_self ..)
      rw [List.filterMap_cons_none (show Act.moment? (.event e) = none from rfl), Irrecv.events,
        List.filterMap_cons_none hnone]
      rfl

/-- The other events are those of the loop. -/
theorem Irrecv.history_loop (r : Irrecv) {acts : List Act}
    (hacts : ∀ e, .event e ∈ acts → e.ir? = none) :
    (history (Irrecv.act others) (Irrecv.events others) r acts).filter
        (fun e => e.ir?.isNone) = acts.filterMap Act.event? := by
  induction acts generalizing r with
  | nil => rfl
  | cons a acts ih =>
    have hrest := fun r => ih r fun e he => hacts e (List.mem_cons_of_mem a he)
    rw [history_cons, List.filter_append, hrest]
    cases a with
    | moment m =>
      rw [List.filterMap_cons_none (show Act.event? (.moment m) = none from rfl), Irrecv.events,
        List.filter_eq_nil_iff.mpr, List.nil_append]
      intro e he
      obtain ⟨code, -, rfl⟩ := List.mem_map.mp he
      simp [Event.ir?]
    | event e =>
      have hnone := hacts e (List.mem_cons_self ..)
      rw [List.filterMap_cons_some (show Act.event? (.event e) = some e from rfl), Irrecv.events,
        List.filter_cons_of_pos (by simp [hnone])]
      rfl

/-! ### What comes of the signals -/

theorem filterMap_ir_effective (es : List Event) :
    (es.filter effective).filterMap Event.ir? =
      (es.filterMap Event.ir?).filter (fun value => decide (value ∈ buttons)) := by
  induction es with
  | nil => rfl
  | cons e es ih =>
    cases e with
    | ir value =>
      have hir : (Event.ir value).ir? = some value := rfl
      by_cases hvalue : value ∈ buttons
      · rw [List.filter_cons_of_pos (by simp [effective, hvalue]), List.filterMap_cons_some hir, ih,
          List.filterMap_cons_some hir, List.filter_cons_of_pos (by simp [hvalue])]
      · rw [List.filter_cons_of_neg (by simp [effective, hvalue]), ih,
          List.filterMap_cons_some hir, List.filter_cons_of_neg (by simp [hvalue])]
    | _ => exact ih

theorem filter_loop_effective (es : List Event) :
    (es.filter effective).filter (fun e => e.ir?.isNone) =
      es.filter (fun e => e.ir?.isNone) := by
  rw [List.filter_filter]
  refine List.filter_congr fun e _ => ?_
  cases e <;> simp [Event.ir?, effective]

/-- **Every signal of a button is one press of it**, whatever the loop does
meanwhile, and signals of other codes do nothing. -/
theorem exists_events {k : Machine} {turns : List Turn} {acts : List Act} {n : Nat}
    (h : Waiting n k.irrecv.irparams) (hgap : Gap n)
    (hgaps : ∀ t ∈ turns.dropLast, Gap t.spaces)
    (hturns : acts.filterMap Act.moment? = turns.flatMap Turn.moments)
    (hacts : ∀ e, .event e ∈ acts → e.ir? = none) :
    ∃ es, Alike (run (Machine.step others) k acts).state (run Polivunator.step k.state es) ∧
      es.filterMap Event.ir? =
        (turns.map (fun t => t.signal.code.toNat)).filter (fun value => decide (value ∈ buttons)) ∧
      es.filter (fun e => e.ir?.isNone) = acts.filterMap Act.event? := by
  refine ⟨(history (Irrecv.act others) (Irrecv.events others) k.irrecv acts).filter effective,
    ?_, ?_, ?_⟩
  · rw [Machine.run_state, Machine.history_eq]
    exact run_alike k.state _
  · rw [filterMap_ir_effective, Irrecv.history_ir others k.irrecv hacts, hturns,
      receives others turns h hgap hgaps, List.map_map]
    rfl
  · rw [filter_loop_effective, Irrecv.history_loop others k.irrecv hacts]

end Others

end Polivunator.Remote
