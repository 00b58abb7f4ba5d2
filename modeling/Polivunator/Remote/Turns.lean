import Polivunator.Remote.Receiver

/-!
# Turns

A `Turn` is a signal and what happens up to the next one.  The loop asks as
often as it likes: while the signal comes in, once when it is over (`waiting`
interrupts after the receiver has stopped), and in the rest of the gap.  Between
the answer and `resume` the sketch is busy with the code for `handling`
interrupts.

`receives` says that a receiver that goes through some turns answers their codes,
each once, in order, and nothing else, if the timer finds a gap before each.  A
turn has at least 101 spaces, so only its sixteen bits can keep it from that.
-/

namespace Polivunator.Remote

open Labelled Irparams

/-- A signal and the gap after it, with the calls of the loop. -/
structure Turn where
  signal : Signal
  during : List Moment
  waiting : Nat
  handling : Nat
  later : List Moment
  rest : Nat
  during_ticks : during.filterMap Moment.tick? = signal.transmission.inside
  during_calls : .resume ∉ during
  later_ticks : later.filterMap Moment.tick? = List.replicate rest .space
  later_calls : .resume ∉ later

namespace Turn

/-- Some interrupts that see no light. -/
def idle (n : Nat) : List Moment := List.replicate n (.tick .space)

/-- Up to the call that finds the code. -/
def arriving (t : Turn) : List Moment := t.during ++ idle (1 + t.waiting)

/-- That call, and until the sketch is done with the code. -/
def answered (t : Turn) : List Moment := .decode :: idle t.handling

/-- All that happens. -/
def moments (t : Turn) : List Moment := t.arriving ++ t.answered ++ .resume :: t.later

/-- A turn in which the loop asks once, when the signal is over. -/
def asked (signal : Signal) (waiting handling rest : Nat) : Turn where
  signal := signal
  during := signal.transmission.inside.map Moment.tick
  waiting := waiting
  handling := handling
  later := idle rest
  rest := rest
  during_ticks := by
    rw [List.filterMap_map]
    exact List.filterMap_some
  during_calls := by simp
  later_ticks := by
    rw [idle, ← List.map_replicate, List.filterMap_map]
    exact List.filterMap_some
  later_calls := by simp [idle]

/-- How many interrupts see a space after the first that does. -/
def spaces (t : Turn) : Nat := 101 + t.waiting + t.handling + t.rest

end Turn

section Others

variable (others : DecodeResults → Bool × DecodeResults)

theorem Irrecv.run_idle (r : Irrecv) (n : Nat) :
    run (Irrecv.step others) r (Turn.idle n) =
        { r with irparams := run Irparams.isr r.irparams (List.replicate n .space) } ∧
      history (Irrecv.step others) (Irrecv.answer others) r (Turn.idle n) = [] := by
  induction n generalizing r with
  | zero => exact ⟨rfl, rfl⟩
  | succ n ih =>
    obtain ⟨hrun, hhist⟩ := ih (r.isr .space)
    exact ⟨hrun, hhist⟩

variable (t : Turn) {r : Irrecv}

/-- The signal comes in, and the calls meanwhile find nothing. -/
theorem Turn.run_arriving {n : Nat} (h : Waiting n r.irparams)
    (hgap : Gap n) :
    Ready (t.signal.transmission.recorded (r.irparams.timer + 1)) (101 + t.waiting)
        (run (Irrecv.step others) r t.arriving).irparams ∧
      history (Irrecv.step others) (Irrecv.answer others) r t.arriving = [] := by
  have hstart := h.gap_timer hgap
  obtain ⟨hcount, hall⟩ := run_transmission h.rcvstate h.rawlen hstart t.signal.transmission
  have hes := t.signal.transmission.length_recorded (r.irparams.timer + 1)
  rw [← t.during_ticks] at hcount hall
  obtain ⟨hduring, hsilent⟩ := r.run_running others t.during_calls hall
  obtain ⟨hidle, hquiet⟩ := Irrecv.run_idle others (run (Irrecv.step others) r t.during)
    (1 + t.waiting)
  refine ⟨?_, ?_⟩
  · rw [arriving, run_append, hidle, hduring, List.replicate_add, run_append]
    exact (hcount.isr_stop hes).run_space hes t.waiting
  · rw [arriving, history_append, hsilent, hquiet]
    rfl

/-- The loop gets the code, and is busy with it. -/
theorem Turn.run_answered {gap : UInt16} {n : Nat}
    (h : Ready (t.signal.transmission.recorded gap) n r.irparams) :
    Ready (t.signal.transmission.recorded gap) (n + t.handling)
        (run (Irrecv.step others) r t.answered).irparams ∧
      history (Irrecv.step others) (Irrecv.answer others) r t.answered = [t.signal.code] := by
  obtain ⟨hsame, hcode⟩ := Irrecv.decode_signal others h
  obtain ⟨hidle, hquiet⟩ := Irrecv.run_idle others (r.decode others).1 t.handling
  refine ⟨?_, ?_⟩
  · rw [answered, run_cons, Irrecv.step, hidle, hsame]
    exact h.run_space (t.signal.transmission.length_recorded gap) t.handling
  · rw [answered, history_cons, Irrecv.step, Irrecv.answer, hquiet, hcode]
    rfl

/-- The receiver waits again, and the calls find nothing. -/
theorem Turn.run_later {es : List UInt16} {n : Nat} (h : Ready es n r.irparams)
    (hes : es.length < rawBufferLength) :
    Waiting (n + t.rest) (run (Irrecv.step others) r (.resume :: t.later)).irparams ∧
      history (Irrecv.step others) (Irrecv.answer others) r (.resume :: t.later) = [] := by
  have hresume : Waiting n (r.step others .resume).irparams := by
    refine ⟨rfl, ?_, h.timer⟩
    show r.irparams.rawlen < rawBufferLength
    rw [← length_entries, h.entries]
    exact hes
  obtain ⟨hwait, hall⟩ := hresume.run_space t.rest
  rw [← t.later_ticks] at hwait hall
  obtain ⟨hlater, hsilent⟩ := Irrecv.run_running others t.later_calls hall
  refine ⟨?_, ?_⟩
  · rw [run_cons, hlater]
    exact hwait
  · rw [history_cons, hsilent]
    rfl

/-- **One turn** delivers its code. -/
theorem Turn.run_moments {n : Nat} (h : Waiting n r.irparams)
    (hgap : Gap n) :
    Waiting t.spaces (run (Irrecv.step others) r t.moments).irparams ∧
      history (Irrecv.step others) (Irrecv.answer others) r t.moments = [t.signal.code] := by
  obtain ⟨harrived, hsilent₁⟩ := t.run_arriving others h hgap
  obtain ⟨hanswered, hcode⟩ := t.run_answered others harrived
  obtain ⟨hwait, hsilent₂⟩ :=
    t.run_later others hanswered (t.signal.transmission.length_recorded _)
  refine ⟨?_, ?_⟩
  · rw [moments, run_append, run_append]
    exact hwait
  · rw [moments, history_append, history_append, run_append, hsilent₁, hcode, hsilent₂]
    rfl

/-- **Every code is received once, in order**, and nothing else. -/
theorem receives (turns : List Turn) {n : Nat} (h : Waiting n r.irparams)
    (hgap : Gap n)
    (hgaps : ∀ t ∈ turns.dropLast, Gap t.spaces) :
    history (Irrecv.step others) (Irrecv.answer others) r (turns.flatMap Turn.moments) =
      turns.map (fun t => t.signal.code) := by
  induction turns generalizing r n with
  | nil => rfl
  | cons t turns ih =>
    obtain ⟨hwait, hcode⟩ := t.run_moments others h hgap
    rw [List.flatMap_cons, history_append, hcode, List.map_cons]
    cases turns with
    | nil => rfl
    | cons u turns =>
      rw [ih hwait (hgaps t (List.mem_cons_self ..)) fun v hv =>
        hgaps v (List.mem_cons_of_mem t hv)]
      rfl

end Others

end Polivunator.Remote
