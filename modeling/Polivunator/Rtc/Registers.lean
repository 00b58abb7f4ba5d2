import Mathlib.Logic.Function.Basic
import Mathlib.Tactic.IntervalCases
import Mathlib.Tactic.SplitIfs

/-!
# The clock module

The registers of the DS3231 and the class that reads and writes them.  Every
register holds two decimal digits, four bits each, and `arrTimeRegMack` says
which of its bits belong to the time.

`read_funcWriteTime` is what becomes of every register when a time is set:
what was set can be read, and what was left out is as before.
-/

namespace Polivunator.Rtc

/-- The memory of the module. -/
abbrev Registers := Nat → UInt8

/-- `arrTimeRegAddr`: seconds, minutes, hours, day, month, year, day of the week. -/
def arrTimeRegAddr : List Nat := [0x00, 0x01, 0x02, 0x04, 0x05, 0x06, 0x03]

/-- `arrTimeRegMack`. -/
def arrTimeRegMack : List UInt8 := [0x7F, 0x7F, 0x3F, 0x3F, 0x1F, 0xFF, 0x07]

/-- `funcReadTimeIndex(i)`. -/
def funcReadTimeIndex (r : Registers) (i : Nat) : UInt8 :=
  r (arrTimeRegAddr.getD i 0) &&& arrTimeRegMack.getD i 0

/-- `funcWriteTimeIndex(i, j)`. -/
def funcWriteTimeIndex (i : Nat) (j : UInt8) (r : Registers) : Registers :=
  let varI := funcReadTimeIndex r i
  let j := j ||| (~~~arrTimeRegMack.getD i 0 &&& varI)
  let j := j &&& (arrTimeRegMack.getD i 0 ||| varI)
  Function.update r (arrTimeRegAddr.getD i 0) j

/-- `funcConvertCodeToNum(i)`. -/
def funcConvertCodeToNum (i : UInt8) : UInt8 := (i >>> 4) * 10 + (i &&& 0x0F)

/-- `funcConvertNumToCode(i)`. -/
def funcConvertNumToCode (i : UInt8) : UInt8 := ((i / 10) <<< 4) + i % 10

/-- One line of `funcWriteTime`: a value outside its limits is not written. -/
def writeField (i : Nat) (lo hi x : Int) (code : UInt8) (r : Registers) : Registers :=
  if x ≤ hi ∧ x ≥ lo then funcWriteTimeIndex i code r else r

/-- `funcWriteTime(i1, i2, i3, i4, i5, i6, i7)`. -/
def funcWriteTime (i1 i2 i3 i4 i5 i6 i7 : Int) (r : Registers) : Registers :=
  let r := writeField 0 0 60 i1 (funcConvertNumToCode (UInt8.ofInt i1)) r
  let r := writeField 1 0 60 i2 (funcConvertNumToCode (UInt8.ofInt i2)) r
  let r := writeField 2 0 23 i3 (funcConvertNumToCode (UInt8.ofInt i3)) r
  let r := writeField 3 1 31 i4 (funcConvertNumToCode (UInt8.ofInt i4)) r
  let r := writeField 4 1 12 i5 (funcConvertNumToCode (UInt8.ofInt i5)) r
  let r := writeField 5 0 99 i6 (funcConvertNumToCode (UInt8.ofInt i6)) r
  writeField 6 0 6 i7 (funcConvertNumToCode (UInt8.ofInt (i7 + 1))) r

/-! ### One register -/

theorem arrTimeRegAddr_inj {i k : Nat} (hi : i < 7) (hk : k < 7)
    (h : arrTimeRegAddr.getD k 0 = arrTimeRegAddr.getD i 0) : k = i := by
  have hall : ∀ i < 7, ∀ k < 7, arrTimeRegAddr.getD k 0 = arrTimeRegAddr.getD i 0 → k = i := by
    decide
  exact hall i hi k hk h

/-- What is put together of the new value and the old one is the new one.  The
old one has been masked already. -/
theorem merge_eq (x j mask : UInt8) :
    (j ||| (~~~mask &&& (x &&& mask))) &&& (mask ||| (x &&& mask)) = j &&& mask := by
  have hnone : ~~~mask &&& (x &&& mask) = 0 := by
    rw [UInt8.and_comm x mask, ← UInt8.and_assoc, UInt8.and_comm (~~~mask) mask]
    simp
  have hall : mask ||| (x &&& mask) = mask := by
    apply UInt8.toBitVec_inj.mp
    apply BitVec.eq_of_getLsbD_eq
    intro i _
    rw [UInt8.toBitVec_or, UInt8.toBitVec_and, BitVec.getLsbD_or, BitVec.getLsbD_and]
    cases mask.toBitVec.getLsbD i <;> simp
  rw [hnone, hall, UInt8.or_zero]

/-- **Reading after writing.** -/
theorem funcReadTimeIndex_write {i k : Nat} (hi : i < 7) (hk : k < 7) (j : UInt8) (r : Registers) :
    funcReadTimeIndex (funcWriteTimeIndex i j r) k =
      if k = i then j &&& arrTimeRegMack.getD i 0 else funcReadTimeIndex r k := by
  by_cases h : k = i
  · subst h
    rw [if_pos rfl, funcReadTimeIndex, funcWriteTimeIndex, Function.update_self, funcReadTimeIndex,
      merge_eq, UInt8.and_assoc, UInt8.and_self]
  · have haddr : arrTimeRegAddr.getD k 0 ≠ arrTimeRegAddr.getD i 0 :=
      fun heq => h (arrTimeRegAddr_inj hi hk heq)
    rw [if_neg h, funcReadTimeIndex, funcWriteTimeIndex, Function.update_of_ne haddr]
    rfl

theorem read_writeField {i k : Nat} (hi : i < 7) (hk : k < 7) (lo hi' x : Int) (code : UInt8)
    (r : Registers) :
    funcReadTimeIndex (writeField i lo hi' x code r) k =
      if k = i ∧ x ≤ hi' ∧ x ≥ lo then code &&& arrTimeRegMack.getD i 0
      else funcReadTimeIndex r k := by
  unfold writeField
  split_ifs with hx hc hc
  · rw [funcReadTimeIndex_write hi hk, if_pos hc.1]
  · rw [funcReadTimeIndex_write hi hk, if_neg (fun h => hc ⟨h, hx⟩)]
  · exact absurd hc.2 hx
  · rfl

/-! ### All of them -/

/-- The limits of the fields. -/
def limits : List (Int × Int) := [(0, 60), (0, 60), (0, 23), (1, 31), (1, 12), (0, 99), (0, 6)]

/-- The digits `funcWriteTime` writes for a field: the days of the week are
numbered from 1 in the module. -/
def written (i : Nat) (x : Int) : UInt8 := UInt8.ofInt (if i = 6 then x + 1 else x)

/-- Two digits come back from their register. -/
theorem funcConvertCodeToNum_written {i : Nat} (hi : i < 7) {x : Int}
    (h : (limits.getD i (0, 0)).1 ≤ x ∧ x ≤ (limits.getD i (0, 0)).2) :
    funcConvertCodeToNum (funcConvertNumToCode (written i x) &&& arrTimeRegMack.getD i 0) =
      written i x := by
  have hall : ∀ i < 7, ∀ n : Nat, n < 100 → (limits.getD i (0, 0)).1 ≤ (n : Int) →
      (n : Int) ≤ (limits.getD i (0, 0)).2 →
        funcConvertCodeToNum (funcConvertNumToCode (written i n) &&& arrTimeRegMack.getD i 0) =
          written i n := by
    decide
  have hbounds : ∀ i < 7, 0 ≤ (limits.getD i (0, 0)).1 ∧ (limits.getD i (0, 0)).2 < 100 := by decide
  obtain ⟨hlo, hhi⟩ := hbounds i hi
  obtain ⟨n, rfl⟩ := Int.eq_ofNat_of_zero_le (Int.le_trans hlo h.1)
  exact hall i hi n (by omega) h.1 h.2

/-- One field. -/
theorem read_field {i : Nat} (hi : i < 7) {lo hi' x : Int} (hlimits : limits.getD i (0, 0) = (lo, hi'))
    (c : UInt8) :
    funcConvertCodeToNum (if True ∧ x ≤ hi' ∧ x ≥ lo then
        funcConvertNumToCode (written i x) &&& arrTimeRegMack.getD i 0 else c) =
      if lo ≤ x ∧ x ≤ hi' then written i x else funcConvertCodeToNum c := by
  by_cases hx : lo ≤ x ∧ x ≤ hi'
  · rw [if_pos ⟨trivial, hx.2, hx.1⟩, if_pos hx]
    apply funcConvertCodeToNum_written hi
    rw [hlimits]
    exact hx
  · rw [if_neg (fun hc => hx ⟨hc.2.2, hc.2.1⟩), if_neg hx]

/-- **What is set is read, what is left out is as before**, field by field. -/
theorem read_funcWriteTime (x : Nat → Int) (r : Registers) {k : Nat} (hk : k < 7) :
    funcConvertCodeToNum
        (funcReadTimeIndex (funcWriteTime (x 0) (x 1) (x 2) (x 3) (x 4) (x 5) (x 6) r) k) =
      if (limits.getD k (0, 0)).1 ≤ x k ∧ x k ≤ (limits.getD k (0, 0)).2 then written k (x k)
      else funcConvertCodeToNum (funcReadTimeIndex r k) := by
  have hread := read_field hk (x := x k) (show limits.getD k (0, 0) =
    ((limits.getD k (0, 0)).1, (limits.getD k (0, 0)).2) from rfl) (funcReadTimeIndex r k)
  rw [← hread]
  congr 1
  clear hread
  interval_cases k
  all_goals
    unfold funcWriteTime
    simp (disch := decide) only [read_writeField, Nat.reduceEqDiff, false_and, if_false]
    rfl

end Polivunator.Rtc
