import Mathlib.Data.List.Range
import Mathlib.Logic.Function.Basic
import Polivunator.Library.Bits

/-!
# A frame of the DHT sensor

The sensor answers with forty bits, each of them a low pulse and a high one, and
a bit is set if the high pulse is the longer.  `DHT::read` measures all of them
first and looks at them afterwards.  The last of the five bytes is the sum of
the others.

`sample_verdict` says when a frame is taken and what is in `data` then.
`balanced_iff_of_one` is about frames of which one byte may be wrong.
-/

namespace Polivunator.Sensor

open Bits

/-! ### Pulses -/

/-- `microsecondsToClockCycles(1000)` at 16 MHz. -/
def maxcycles : Nat := 16000

def TIMEOUT : UInt32 := 0xFFFFFFFF

/-- `expectPulse(level)` on a line that keeps the level for so many turns of its loop. -/
def expectPulse (turns : Nat) : UInt32 := if turns ≤ maxcycles then UInt32.ofNat turns else TIMEOUT

/-- How long the pulses of an answer are: the two of its start and the eighty of its bits. -/
abbrev Line := Nat → Nat

/-- The array `cycles`. -/
def cycles (line : Line) (i : Nat) : UInt32 := expectPulse (line (i + 2))

theorem expectPulse_of_le {turns : Nat} (h : turns ≤ maxcycles) :
    expectPulse turns ≠ TIMEOUT ∧ (expectPulse turns).toNat = turns := by
  have hlt : turns < UInt32.size := Nat.lt_of_le_of_lt h (by decide)
  have hval : (UInt32.ofNat turns).toNat = turns := UInt32.toNat_ofNat_of_lt hlt
  rw [expectPulse, if_pos h]
  refine ⟨?_, hval⟩
  intro heq
  have htimeout := congrArg UInt32.toNat heq
  rw [hval] at htimeout
  have hbound : turns ≤ 16000 := h
  have hvalue : TIMEOUT.toNat = 4294967295 := rfl
  omega

theorem expectPulse_eq_timeout {turns : Nat} : expectPulse turns = TIMEOUT ↔ maxcycles < turns := by
  constructor
  · intro h
    rw [← Nat.not_le]
    exact fun hle => (expectPulse_of_le hle).1 h
  · intro h
    rw [expectPulse, if_neg (Nat.not_le.mpr h)]

/-! ### One answer of the sensor -/

/-- The object `dht`, the pin and the type apart. -/
structure Dht where
  data : Nat → BitVec 8
  lastreadtime : UInt32
  lastresult : Bool

/-- The loop over the bits that are left, from the `i`-th on: what is in `data`, and
whether no pulse has timed out. -/
def inspect (line : Line) : Nat → Nat → (Nat → BitVec 8) → (Nat → BitVec 8) × Bool
  | 0, _, data => (data, true)
  | left + 1, i, data =>
      let lowCycles := cycles line (2 * i)
      let highCycles := cycles line (2 * i + 1)
      if lowCycles = TIMEOUT ∨ highCycles = TIMEOUT then (data, false)
      else
        inspect line left (i + 1)
          (Function.update data (i / 8) (shiftIn (data (i / 8)) (decide (highCycles > lowCycles))))

/-- `read(force)` once it has been decided to ask the sensor. -/
def sample (line : Line) (d : Dht) : Dht × Bool :=
  let d := { d with data := fun _ => 0 }
  if expectPulse (line 0) = TIMEOUT then ({ d with lastresult := false }, false)
  else if expectPulse (line 1) = TIMEOUT then ({ d with lastresult := false }, false)
  else
    let (data, inTime) := inspect line 40 0 d.data
    let d := { d with data := data }
    if !inTime then ({ d with lastresult := false }, false)
    else if d.data 4 = d.data 0 + d.data 1 + d.data 2 + d.data 3 then
      ({ d with lastresult := true }, true)
    else ({ d with lastresult := false }, false)

/-! ### What a line carries -/

/-- No pulse is too long. -/
def InTime (line : Line) : Prop := ∀ k < 82, line k ≤ maxcycles

instance (line : Line) : Decidable (InTime line) := inferInstanceAs (Decidable (∀ k < 82, _))

/-- The `i`-th bit: its high pulse is the longer. -/
def bitAt (line : Line) (i : Nat) : Bool := decide (line (2 * i + 2) < line (2 * i + 3))

/-- The `j`-th byte. -/
def byteAt (line : Line) (j : Nat) : BitVec 8 :=
  ((List.range' (8 * j) 8).map (bitAt line)).foldl shiftIn 0

/-- The last byte is the sum of the others. -/
def Balanced (bytes : Nat → BitVec 8) : Prop := bytes 4 = bytes 0 + bytes 1 + bytes 2 + bytes 3

instance (bytes : Nat → BitVec 8) : Decidable (Balanced bytes) :=
  inferInstanceAs (Decidable (bytes 4 = _))

/-- The `i`-th of the forty bits of a frame. -/
def frameBit (frame : Nat → BitVec 8) (i : Nat) : Bool := (frame (i / 8)).getLsbD (7 - i % 8)

/-- A byte arrives if its bits do. -/
theorem byteAt_eq_iff {line : Line} {frame : Nat → BitVec 8} {j : Nat} (hj : j < 5) :
    byteAt line j = frame j ↔ ∀ i < 40, i / 8 = j → bitAt line i = frameBit frame i := by
  have hbits : bits (frame j) 8 = (List.range' (8 * j) 8).map (frameBit frame) := by
    rcases j with _ | _ | _ | _ | _ | j
    case succ.succ.succ.succ.succ => omega
    all_goals rfl
  have hown : ∀ i, i ∈ List.range' (8 * j) 8 ↔ i < 40 ∧ i / 8 = j := by
    intro i
    rw [List.mem_range'_1]
    omega
  have hmaps : byteAt line j = frame j ↔
      (List.range' (8 * j) 8).map (bitAt line) = (List.range' (8 * j) 8).map (frameBit frame) := by
    constructor
    · intro h
      have hlen : ((List.range' (8 * j) 8).map (bitAt line)).length ≤ 8 := by simp
      have hback := bits_foldl_shiftIn hlen
      rw [List.length_map, List.length_range'] at hback
      rw [← hbits, ← hback, ← h]
      rfl
    · intro h
      rw [byteAt, h, ← hbits]
      exact foldl_shiftIn (frame j)
  rw [hmaps, List.map_inj_left]
  constructor
  · exact fun h i hi hij => h i ((hown i).mpr ⟨hi, hij⟩)
  · intro h i hi
    obtain ⟨hlt, hij⟩ := (hown i).mp hi
    exact h i hlt hij

/-- **The sum tells if one byte is wrong.** -/
theorem balanced_iff_of_one {bytes frame : Nat → BitVec 8} (hframe : Balanced frame) {k : Nat}
    (hk : k < 5) (hothers : ∀ j < 5, j ≠ k → bytes j = frame j) :
    Balanced bytes ↔ bytes k = frame k := by
  rw [Balanced] at hframe ⊢
  have hwhich : k = 4 ∨ k = 0 ∨ k = 1 ∨ k = 2 ∨ k = 3 := by omega
  rcases hwhich with rfl | rfl | rfl | rfl | rfl
  · rw [hothers 0 (by decide) (by decide), hothers 1 (by decide) (by decide),
      hothers 2 (by decide) (by decide), hothers 3 (by decide) (by decide), hframe]
  · rw [hothers 1 (by decide) (by decide), hothers 2 (by decide) (by decide),
      hothers 3 (by decide) (by decide), hothers 4 (by decide) (by decide), hframe, eq_comm]
    simp
  · rw [hothers 0 (by decide) (by decide), hothers 2 (by decide) (by decide),
      hothers 3 (by decide) (by decide), hothers 4 (by decide) (by decide), hframe, eq_comm]
    simp
  · rw [hothers 0 (by decide) (by decide), hothers 1 (by decide) (by decide),
      hothers 3 (by decide) (by decide), hothers 4 (by decide) (by decide), hframe, eq_comm]
    simp
  · rw [hothers 0 (by decide) (by decide), hothers 1 (by decide) (by decide),
      hothers 2 (by decide) (by decide), hothers 4 (by decide) (by decide), hframe, eq_comm]
    simp

/-- Whether an answer can be taken. -/
def verdict (line : Line) : Bool := decide (InTime line ∧ Balanced (byteAt line))

/-- Bits that are shifted into the bytes they belong to. -/
def shifted (line : Line) (data : Nat → BitVec 8) (is : List Nat) : Nat → BitVec 8 :=
  is.foldl (fun data i => Function.update data (i / 8) (shiftIn (data (i / 8)) (bitAt line i))) data

/-- Each byte gets its own bits. -/
theorem shifted_apply (line : Line) (is : List Nat) (data : Nat → BitVec 8) (j : Nat) :
    shifted line data is j =
      ((is.filter fun i => decide (i / 8 = j)).map (bitAt line)).foldl shiftIn (data j) := by
  induction is generalizing data with
  | nil => rfl
  | cons i is ih =>
    have hcons : shifted line data (i :: is) =
        shifted line (Function.update data (i / 8) (shiftIn (data (i / 8)) (bitAt line i))) is := rfl
    rw [hcons, ih]
    by_cases hi : i / 8 = j
    · rw [List.filter_cons_of_pos (by simpa using hi), List.map_cons, List.foldl_cons, ← hi,
        Function.update_self]
    · rw [List.filter_cons_of_neg (by simpa using hi), Function.update_of_ne (Ne.symm hi)]

/-- **The forty bits make five bytes.** -/
theorem shifted_forty (line : Line) {j : Nat} (hj : j < 5) :
    shifted line (fun _ => 0) (List.range' 0 40) j = byteAt line j := by
  have hown : ∀ j < 5, (List.range' 0 40).filter (fun i => decide (i / 8 = j)) =
      List.range' (8 * j) 8 := by decide
  rw [shifted_apply, hown j hj, byteAt]

/-- The loop in time. -/
theorem inspect_inTime {line : Line} (h : InTime line) {left i : Nat} (hleft : i + left ≤ 40)
    (data : Nat → BitVec 8) :
    inspect line left i data = (shifted line data (List.range' i left), true) := by
  induction left generalizing i data with
  | zero => rfl
  | succ left ih =>
    obtain ⟨hlow, hlowval⟩ := expectPulse_of_le (h (2 * i + 2) (by omega))
    obtain ⟨hhigh, hhighval⟩ := expectPulse_of_le (h (2 * i + 3) (by omega))
    have hbit : decide (cycles line (2 * i + 1) > cycles line (2 * i)) = bitAt line i := by
      rw [bitAt, decide_eq_decide, gt_iff_lt, UInt32.lt_iff_toNat_lt, cycles, cycles, hlowval,
        hhighval]
    have hpulse : ¬ (cycles line (2 * i) = TIMEOUT ∨ cycles line (2 * i + 1) = TIMEOUT) :=
      not_or.mpr ⟨hlow, hhigh⟩
    rw [inspect, if_neg hpulse, hbit, ih (by omega), List.range'_succ]
    rfl

/-- The loop stops at a pulse that is too long. -/
theorem inspect_late {line : Line} {left i k : Nat} (hlo : 2 * i + 2 ≤ k)
    (hhi : k < 2 * (i + left) + 2) (hlate : maxcycles < line k) (data : Nat → BitVec 8) :
    (inspect line left i data).2 = false := by
  induction left generalizing i data with
  | zero => omega
  | succ left ih =>
    rw [inspect]
    split_ifs with hpulse
    · rfl
    · -- neither pulse of this bit is the late one
      rw [not_or] at hpulse
      have hlow : k ≠ 2 * i + 2 := by
        rintro rfl
        exact hpulse.1 (expectPulse_eq_timeout.mpr hlate)
      have hhigh : k ≠ 2 * i + 3 := by
        rintro rfl
        exact hpulse.2 (expectPulse_eq_timeout.mpr hlate)
      exact ih (by omega) (by omega) _

/-- **What an answer of the sensor does.** -/
theorem sample_verdict (line : Line) (d : Dht) :
    (sample line d).2 = verdict line ∧ (sample line d).1.lastresult = verdict line ∧
      (sample line d).1.lastreadtime = d.lastreadtime ∧
      (verdict line = true → ∀ j < 5, (sample line d).1.data j = byteAt line j) := by
  by_cases h : InTime line
  · have hlow := (expectPulse_of_le (h 0 (by omega))).1
    have hhigh := (expectPulse_of_le (h 1 (by omega))).1
    have hbytes : ∀ j < 5, shifted line (fun _ => 0) (List.range' 0 40) j = byteAt line j :=
      fun j hj => shifted_forty line hj
    have hsum : shifted line (fun _ => 0) (List.range' 0 40) 4 =
        shifted line (fun _ => 0) (List.range' 0 40) 0 + shifted line (fun _ => 0) (List.range' 0 40) 1 +
          shifted line (fun _ => 0) (List.range' 0 40) 2 +
          shifted line (fun _ => 0) (List.range' 0 40) 3 ↔ Balanced (byteAt line) := by
      rw [hbytes 4 (by decide), hbytes 0 (by decide), hbytes 1 (by decide), hbytes 2 (by decide),
        hbytes 3 (by decide)]
      rfl
    unfold sample
    dsimp only
    rw [if_neg hlow, if_neg hhigh, inspect_inTime h (by decide)]
    dsimp only
    by_cases hbalanced : Balanced (byteAt line)
    · have htrue : verdict line = true := decide_eq_true ⟨h, hbalanced⟩
      rw [if_neg (by decide), if_pos (hsum.mpr hbalanced), htrue]
      exact ⟨rfl, rfl, rfl, fun _ => hbytes⟩
    · have hfalse : verdict line = false := decide_eq_false (fun hc => hbalanced hc.2)
      rw [if_neg (by decide), if_neg (fun hc => hbalanced (hsum.mp hc)), hfalse]
      exact ⟨rfl, rfl, rfl, fun hc => absurd hc (by decide)⟩
  · have hfalse : verdict line = false := decide_eq_false (fun hc => h hc.1)
    rw [hfalse]
    obtain ⟨k, hk, hlate⟩ : ∃ k < 82, maxcycles < line k := by
      simpa [InTime] using h
    have hinspect : 2 ≤ k → (inspect line 40 0 fun _ => 0).2 = false :=
      fun h2 => inspect_late (by omega) (by omega) hlate _
    unfold sample
    dsimp only
    split_ifs with hlow hhigh hdone hsum
    · exact ⟨rfl, rfl, rfl, fun hc => absurd hc (by decide)⟩
    · exact ⟨rfl, rfl, rfl, fun hc => absurd hc (by decide)⟩
    · exact ⟨rfl, rfl, rfl, fun hc => absurd hc (by decide)⟩
    · exfalso
      rcases k with _ | _ | k
      · exact hlow (expectPulse_eq_timeout.mpr hlate)
      · exact hhigh (expectPulse_eq_timeout.mpr hlate)
      · exact hdone (by rw [hinspect (by omega)]; rfl)
    · exact ⟨rfl, rfl, rfl, fun hc => absurd hc (by decide)⟩

end Polivunator.Sensor
