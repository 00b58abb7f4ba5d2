import Mathlib.Tactic.SplitIfs
import Mathlib.Data.List.Forall2
import Mathlib.Algebra.GroupWithZero.Nat
import Mathlib.Algebra.Order.Group.Nat

/-!
# Sampling a signal with two levels

A signal that changes between two levels is the list of the durations it stays
at them.  `wave` is its level at a time, and `alternating` the list of samples
of a signal whose stretches are counted in samples.

`counts` is how many of the instants `phase`, `phase + period`, and so on fall
into each stretch of a signal.  `samples_wave` says that looking at the signal at
these instants gives the stretches with these counts, and `counts_near` that a
count is the duration divided by the period, rounded down or up, whatever the
phase.
-/

namespace Waveform

universe u

variable {α : Type u}

/-- The samples of stretches of the levels `a` and `b` in turn. -/
def alternating (a b : α) : List Nat → List α
  | [] => []
  | n :: ns => List.replicate n a ++ alternating b a ns

/-- The level at a time.  After the last stretch the next level stays. -/
def wave (a b : α) : List Nat → Nat → α
  | [], _ => a
  | d :: ds, t => if t < d then a else wave b a ds (t - d)

/-- How many of the instants `phase`, `phase + period`, ... come before `d`. -/
def instants (period phase d : Nat) : Nat := (d + (period - 1) - phase) / period

/-- How many instants fall into each stretch. -/
def counts (period : Nat) : Nat → List Nat → List Nat
  | _, [] => []
  | phase, d :: ds =>
      instants period phase d ::
        counts period (phase + period * instants period phase d - d) ds

section Instants

variable {period phase : Nat}

theorem lt_instants_iff (h : phase < period) (d i : Nat) :
    i < instants period phase d ↔ phase + period * i < d := by
  rw [instants, ← Nat.succ_le_iff, Nat.le_div_iff_mul_le (by omega), Nat.succ_mul,
    Nat.mul_comm i period]
  omega

/-- The first instant that is not before `d` is less than a period after it. -/
theorem phase_lt (h : phase < period) (d : Nat) :
    phase + period * instants period phase d - d < period := by
  cases hn : instants period phase d with
  | zero => omega
  | succ n =>
    have hbefore := (lt_instants_iff h d n).mp (by omega)
    rw [Nat.mul_succ]
    omega

theorem le_phase (h : phase < period) (d : Nat) :
    d ≤ phase + period * instants period phase d := by
  have hnot := mt (lt_instants_iff h d (instants period phase d)).mpr (Nat.lt_irrefl _)
  omega

/-- **A count is the duration over the period**, rounded down or up. -/
theorem instants_near (h : phase < period) (d : Nat) :
    d / period ≤ instants period phase d ∧
      instants period phase d ≤ (d + (period - 1)) / period :=
  ⟨Nat.div_le_div_right (by omega), Nat.div_le_div_right (by omega)⟩

end Instants

/-! ### Lists of stretches -/

variable {period : Nat}

theorem alternating_append (a b : α) (ms ns : List Nat) :
    alternating a b (ms ++ ns) =
      alternating a b ms ++
        if ms.length % 2 = 0 then alternating a b ns else alternating b a ns := by
  induction ms generalizing a b with
  | nil => rfl
  | cons n ms ih =>
    rw [List.cons_append, alternating, ih, alternating, List.append_assoc, List.length_cons]
    congr 2
    split_ifs <;> first | rfl | omega

/-- **Whatever the phase, a count is the duration over the period**, rounded down
or up. -/
theorem counts_near {phase : Nat} (h : phase < period) (ds : List Nat) :
    List.Forall₂ (fun d n => d / period ≤ n ∧ n ≤ (d + (period - 1)) / period) ds
      (counts period phase ds) := by
  induction ds generalizing phase with
  | nil => exact List.Forall₂.nil
  | cons d ds ih => exact List.Forall₂.cons (instants_near h d) (ih (phase_lt h d))

/-- **Looking at a signal at regular instants**, and at `m` of them after it. -/
theorem samples_wave {phase : Nat} (h : phase < period) (a b : α) (ds : List Nat) (m : Nat) :
    (List.range ((counts period phase ds).sum + m)).map
        (fun i => wave a b ds (phase + period * i)) =
      alternating a b (counts period phase ds) ++
        List.replicate m (if ds.length % 2 = 0 then a else b) := by
  induction ds generalizing phase a b with
  | nil =>
    rw [counts, List.sum_nil, Nat.zero_add, alternating, List.nil_append, List.length_nil,
      if_pos (Nat.zero_mod 2)]
    have hall := List.map_eq_replicate_iff.mpr
      (fun i (_ : i ∈ List.range m) => show wave a b [] (phase + period * i) = a from rfl)
    rw [hall, List.length_range]
  | cons d ds ih =>
    have hrest := ih (phase_lt h d) b a
    have hlevel : (if (d :: ds).length % 2 = 0 then a else b) =
        if ds.length % 2 = 0 then b else a := by
      rw [List.length_cons]
      split_ifs <;> first | rfl | omega
    rw [counts, List.sum_cons, Nat.add_assoc, List.range_add, List.map_append, alternating, hlevel,
      List.append_assoc, ← hrest]
    congr 1
    · rw [List.map_eq_replicate_iff.mpr, List.length_range]
      intro i hi
      rw [wave, if_pos ((lt_instants_iff h d i).mp (List.mem_range.mp hi))]
    · rw [List.map_map]
      refine List.map_congr_left fun i _ => ?_
      have hle := le_phase h d
      rw [Function.comp_apply, wave, Nat.mul_add, if_neg (by omega)]
      congr 1
      omega

end Waveform
