import Mathlib.Data.BitVec
import Mathlib.Tactic.SplitIfs

/-!
# Words sent bit by bit

A word is sent with its highest bit first, and the other side shifts each bit in
from below.  `foldl_shiftIn` says that this gives the word back, and
`bits_foldl_shiftIn` that no other bits give it.

`forall_byte` is for facts about single bytes, which can be decided.
-/

namespace Bits

variable {w : Nat}

/-- The lowest `k` bits of a word, the highest of them first. -/
def bits (v : BitVec w) : Nat → List Bool
  | 0 => []
  | k + 1 => v.getLsbD k :: bits v k

/-- Shift one bit in. -/
def shiftIn (v : BitVec w) (b : Bool) : BitVec w := v <<< 1 ||| if b then 1#w else 0#w

theorem length_bits (v : BitVec w) (k : Nat) : (bits v k).length = k := by
  induction k with
  | zero => rfl
  | succ k ih => rw [bits, List.length_cons, ih]

theorem shiftIn_ushiftRight (v : BitVec w) (k : Nat) :
    shiftIn (v >>> (k + 1)) (v.getLsbD k) = v >>> k := by
  apply BitVec.eq_of_getLsbD_eq
  intro i hi
  rw [shiftIn, BitVec.getLsbD_or, BitVec.getLsbD_shiftLeft, BitVec.getLsbD_ushiftRight,
    BitVec.getLsbD_ushiftRight]
  cases i with
  | zero => split_ifs with hk <;> simp [hi, hk]
  | succ i =>
    have hindex : k + 1 + (i + 1 - 1) = k + (i + 1) := by omega
    rw [hindex]
    split_ifs <;> simp [hi]

theorem foldl_shiftIn_ushiftRight (v : BitVec w) (k : Nat) :
    (bits v k).foldl shiftIn (v >>> k) = v := by
  induction k with
  | zero => exact BitVec.ushiftRight_zero v
  | succ k ih => rw [bits, List.foldl_cons, shiftIn_ushiftRight, ih]

/-- **A word that is shifted in is the word.** -/
theorem foldl_shiftIn (v : BitVec w) : (bits v w).foldl shiftIn 0#w = v := by
  have hzero : v >>> w = 0#w := BitVec.ushiftRight_eq_zero (Nat.le_refl w)
  rw [← hzero]
  exact foldl_shiftIn_ushiftRight v w

theorem bits_shiftIn (v : BitVec w) (b : Bool) {k : Nat} (hk : k < w) :
    bits (shiftIn v b) (k + 1) = bits v k ++ [b] := by
  have hbit : ∀ i, i < w → (shiftIn v b).getLsbD i = if i = 0 then b else v.getLsbD (i - 1) := by
    intro i hi
    rw [shiftIn, BitVec.getLsbD_or, BitVec.getLsbD_shiftLeft]
    cases i with
    | zero => cases b <;> simp [hi]
    | succ i => cases b <;> simp [hi]
  induction k with
  | zero => rw [bits, bits, hbit 0 hk, if_pos rfl, bits, List.nil_append]
  | succ k ih =>
    rw [bits, ih (by omega), hbit (k + 1) hk, if_neg (Nat.succ_ne_zero k), bits, List.cons_append]
    rfl

/-- **The bits shifted in are those of the word.** -/
theorem bits_foldl_shiftIn {bs : List Bool} (h : bs.length ≤ w) :
    bits (bs.foldl shiftIn 0#w) bs.length = bs := by
  induction bs using List.reverseRecOn with
  | nil => rfl
  | append_singleton bs b ih =>
    rw [List.length_append, List.length_singleton] at h ⊢
    rw [List.foldl_append, List.foldl_cons, List.foldl_nil, bits_shiftIn _ _ (by omega),
      ih (by omega)]

/-- One bit under a mask. -/
theorem and_mask_ne_zero (v : BitVec w) {k : Nat} (hk : k < w) :
    v &&& 1#w <<< k ≠ 0#w ↔ v.getLsbD k = true := by
  rw [← BitVec.twoPow_eq, BitVec.and_twoPow]
  split_ifs with h
  · refine iff_of_true (fun hzero => ?_) h
    have hbit := congrArg (fun x => x.getLsbD k) hzero
    simp [hk] at hbit
  · exact iff_of_false (fun hne => hne rfl) h

/-- What holds for the 256 bytes one by one. -/
theorem forall_byte {P : UInt8 → Prop} (h : ∀ n < 256, P (UInt8.ofNat n)) (b : UInt8) : P b := by
  have hb := h b.toNat b.toNat_lt
  rw [UInt8.ofNat_toNat] at hb
  exact hb

end Bits
