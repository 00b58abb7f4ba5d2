import Polivunator.Library.Labelled

/-!
# Splitting a stream at a delimiter

A reader collects characters one at a time in a buffer.  The delimiter closes
the frame: the handler sees the buffer, delimiter included, together with the
mode the frames before it left, and the buffer is cleared.  `feed` is that
step and `emit` what it shows; handler and outputs are arbitrary.

`run_open` and `run_frame` are the two facts a proof about such a reader needs:
a stretch without delimiter only grows the buffer, and a stretch closed by one
delimiter is one call of the handler.

`run_two_frames` says what two frames leave: the reader holds what the handler
made of the second one in the mode that the first one left.
-/

namespace Framing

open Labelled

universe u v w

variable {α : Type u} {μ : Type v} {β : Type w}

/-- What a reader holds: the open frame and the mode. -/
structure Reader (α : Type u) (μ : Type v) where
  buffer : List α
  mode : μ

/-- A stream with two delimiters starts with two frames. -/
theorem exists_two_frames [BEq α] [LawfulBEq α] {d : α} {l : List α} (h : 2 ≤ l.count d) :
    ∃ xs ys rest, d ∉ xs ∧ d ∉ ys ∧ l = xs ++ [d] ++ (ys ++ [d]) ++ rest := by
  have hfirst : d ∈ l := List.count_pos_iff.mp (by omega)
  obtain ⟨xs, l, rfl, hx⟩ := List.eq_append_cons_of_mem hfirst
  rw [List.count_append, List.count_eq_zero.mpr hx, List.count_cons_self] at h
  have hsecond : d ∈ l := List.count_pos_iff.mp (by omega)
  obtain ⟨ys, l, rfl, hy⟩ := List.eq_append_cons_of_mem hsecond
  exact ⟨xs, ys, l, hx, hy, by simp⟩

section Feed

variable [DecidableEq α] (d : α) (handle : μ → List α → μ) (out : μ → List α → List β)

/-- Take one character. -/
def feed (r : Reader α μ) (a : α) : Reader α μ :=
  if a = d then ⟨[], handle r.mode (r.buffer ++ [a])⟩ else ⟨r.buffer ++ [a], r.mode⟩

/-- What taking one character shows. -/
def emit (r : Reader α μ) (a : α) : List β :=
  if a = d then out r.mode (r.buffer ++ [a]) else []

variable {d}

/-- Without a delimiter nothing happens but the buffer growing. -/
theorem run_open {xs : List α} (h : d ∉ xs) (r : Reader α μ) :
    run (feed d handle) r xs = ⟨r.buffer ++ xs, r.mode⟩ ∧
      history (feed d handle) (emit d out) r xs = [] := by
  induction xs generalizing r with
  | nil => simp
  | cons a xs ih =>
    rw [List.mem_cons, not_or] at h
    obtain ⟨hrun, hhist⟩ := ih h.2 (feed d handle r a)
    have ha : ¬ a = d := fun he => h.1 he.symm
    rw [run_cons, history_cons, hrun, hhist, feed, emit, if_neg ha, if_neg ha]
    simp

/-- **One frame is one call of the handler.** -/
theorem run_frame {xs : List α} (h : d ∉ xs) (r : Reader α μ) :
    run (feed d handle) r (xs ++ [d]) = ⟨[], handle r.mode (r.buffer ++ xs ++ [d])⟩ ∧
      history (feed d handle) (emit d out) r (xs ++ [d]) =
        out r.mode (r.buffer ++ xs ++ [d]) := by
  obtain ⟨hrun, hhist⟩ := run_open handle out h r
  rw [run_snoc, history_snoc, hrun, hhist, feed, emit, if_pos rfl, if_pos rfl]
  simp

/-! ### Two frames -/

theorem run_two_frames {xs ys : List α} (hx : d ∉ xs) (hy : d ∉ ys) (r : Reader α μ) :
    run (feed d handle) r (xs ++ [d] ++ (ys ++ [d])) =
        ⟨[], handle (handle r.mode (r.buffer ++ xs ++ [d])) (ys ++ [d])⟩ ∧
      history (feed d handle) (emit d out) r (xs ++ [d] ++ (ys ++ [d])) =
        out r.mode (r.buffer ++ xs ++ [d]) ++
          out (handle r.mode (r.buffer ++ xs ++ [d])) (ys ++ [d]) := by
  obtain ⟨hrun₁, hhist₁⟩ := run_frame handle out hx r
  obtain ⟨hrun₂, hhist₂⟩ := run_frame handle out hy ⟨[], handle r.mode (r.buffer ++ xs ++ [d])⟩
  rw [run_append, history_append, hrun₁, hhist₁, hrun₂, hhist₂]
  exact ⟨rfl, rfl⟩

end Feed

end Framing
