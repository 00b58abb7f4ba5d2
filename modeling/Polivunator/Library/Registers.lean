import Polivunator.Library.Labelled
import Mathlib.Data.List.Induction
import Mathlib.Logic.Function.Basic

/-!
# Registers that are written one at a time

An input writes one register or none, and `store` is what it does to all of
them.  `run_store` is what a register holds after some inputs: what was last
written to it, or what it held before.
-/

namespace Registers

open Labelled

universe u v w

variable {κ : Type u} {ν : Type v} {ι : Type w} [DecidableEq κ] (writes : ι → Option (κ × ν))

/-- Take one input. -/
def store (m : κ → ν) (x : ι) : κ → ν :=
  match writes x with
  | none => m
  | some w => Function.update m w.1 w.2

/-- What an input writes to this register. -/
def writesTo (k : κ) (x : ι) : Option ν :=
  match writes x with
  | none => none
  | some w => if w.1 = k then some w.2 else none

/-- What was last written to it. -/
def last (k : κ) (xs : List ι) : Option ν := (xs.filterMap (writesTo writes k)).getLast?

variable {writes}

theorem store_none (m : κ → ν) {x : ι} (h : writes x = none) : store writes m x = m := by
  rw [store, h]

theorem store_some (m : κ → ν) {x : ι} {w : κ × ν} (h : writes x = some w) :
    store writes m x = Function.update m w.1 w.2 := by
  rw [store, h]

theorem store_apply (m : κ → ν) (x : ι) (k : κ) :
    store writes m x k = (writesTo writes k x).getD (m k) := by
  unfold store writesTo
  cases writes x with
  | none => rfl
  | some w =>
    by_cases hk : w.1 = k
    · subst hk
      simp
    · simp [hk, Function.update_of_ne (Ne.symm hk)]

theorem last_snoc (k : κ) (xs : List ι) (x : ι) :
    last writes k (xs ++ [x]) = (writesTo writes k x).or (last writes k xs) := by
  unfold last
  rw [List.filterMap_append, List.getLast?_append]
  cases hx : writesTo writes k x with
  | none => rw [List.filterMap_cons_none hx]; rfl
  | some v => rw [List.filterMap_cons_some hx]; rfl

/-- The last write, as the last of the inputs that write. -/
theorem last_eq_filter {k : κ} {p : ι → Bool} {value : ι → ν}
    (h : ∀ x, writesTo writes k x = if p x then some (value x) else none) (xs : List ι) :
    last writes k xs = (xs.filter p).getLast?.map value := by
  induction xs using List.reverseRecOn with
  | nil => rfl
  | append_singleton xs x ih =>
    rw [last_snoc, ih, h, List.filter_append, List.getLast?_append]
    cases hp : p x with
    | false => rw [List.filter_cons_of_neg (by simp [hp])]; rfl
    | true => rw [List.filter_cons_of_pos hp]; rfl

/-- **The last write wins.** -/
theorem run_store (m : κ → ν) (xs : List ι) (k : κ) :
    run (store writes) m xs k = (last writes k xs).getD (m k) := by
  induction xs using List.reverseRecOn with
  | nil => rfl
  | append_singleton xs x ih =>
    rw [run_snoc, store_apply, last_snoc, ih]
    cases writesTo writes k x <;> rfl

end Registers
