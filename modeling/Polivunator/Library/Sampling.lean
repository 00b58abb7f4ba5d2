import Mathlib.Logic.Basic

/-!
# A register that is sampled now and then

A register is overwritten at the steps that are due and left alone at the
others.  `last` is the last due step, `last_eq_some` says so, and
`exists_last` that it is no earlier than any due step.  `register_eq` is what
the register holds: the sample taken at the last due step, or what it was
built with.
-/

namespace Sampling

universe u

variable (due : Nat → Bool)

/-- The last due step up to `n`. -/
def last : Nat → Option Nat
  | 0 => if due 0 then some 0 else none
  | n + 1 => if due (n + 1) then some (n + 1) else last n

variable {due}

theorem last_eq_some {n m : Nat} (h : last due n = some m) : m ≤ n ∧ due m = true := by
  induction n with
  | zero =>
    rw [last] at h
    split at h
    · rename_i hdue
      obtain rfl := Option.some.inj h
      exact ⟨Nat.le_refl 0, hdue⟩
    · exact absurd h (by simp)
  | succ n ih =>
    rw [last] at h
    split at h
    · rename_i hdue
      obtain rfl := Option.some.inj h
      exact ⟨Nat.le_refl _, hdue⟩
    · obtain ⟨hle, hdue⟩ := ih h
      exact ⟨Nat.le_succ_of_le hle, hdue⟩

theorem exists_last {n m : Nat} (hm : m ≤ n) (h : due m = true) :
    ∃ i, last due n = some i ∧ m ≤ i := by
  induction n with
  | zero =>
    obtain rfl : m = 0 := by omega
    exact ⟨0, by rw [last, if_pos h], Nat.le_refl 0⟩
  | succ n ih =>
    by_cases hlast : due (n + 1) = true
    · exact ⟨n + 1, by rw [last, if_pos hlast], hm⟩
    · have hne : m ≠ n + 1 := fun he => hlast (he ▸ h)
      obtain ⟨i, hi, hle⟩ := ih (by omega)
      exact ⟨i, by rw [last, if_neg hlast, hi], hle⟩

/-- **What the register holds.** -/
theorem register_eq {α : Type u} (init : α) (sample register : Nat → α)
    (hzero : register 0 = if due 0 then sample 0 else init)
    (hsucc : ∀ n, register (n + 1) = if due (n + 1) then sample (n + 1) else register n) (n : Nat) :
    register n = (last due n).elim init sample := by
  induction n with
  | zero =>
    rw [hzero, last]
    split <;> rfl
  | succ n ih =>
    rw [hsucc, last, ih]
    split <;> rfl

end Sampling
