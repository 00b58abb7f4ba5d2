import Polivunator.Library.Bits
import Polivunator.Remote.Irparams

/-!
# NEC codes

The decoder of the remote control's code, and the sender the library has for it.
A transmission is a long mark and a space, 32 bits with the highest one first,
and a short mark.  Every bit is a short mark and a space that is long for a one.
While a button is held a shorter transmission without bits follows.

The decoder compares the entries of `rawbuf` with these durations, within a
quarter and with 100 µs that a receiver adds to the marks.  `decodeNEC_sendNEC`
is the way back: entries it takes for the durations sent give the code sent.
`decodeNEC_iff` is the converse as well: a code other than 0 and the one of a
repetition is only answered for entries that spell it.  A frame with the right
header and an entry that spells no bit is answered all the same, with the code 0.
-/

namespace Polivunator.Remote

open Bits

/-! ### Durations -/

def markExcessMicros : Int := 100

/-- `TICKS_LOW`. -/
def ticksLow (us : Int) : Int := us.tdiv 67

/-- `TICKS_HIGH`. -/
def ticksHigh (us : Int) : Int := us.tdiv 40 + 1

/-- `MATCH_MARK`. -/
def matchMark (measuredTicks desiredUs : Int) : Bool :=
  decide (measuredTicks ≥ ticksLow (desiredUs + markExcessMicros)) &&
    decide (measuredTicks ≤ ticksHigh (desiredUs + markExcessMicros))

/-- `MATCH_SPACE`. -/
def matchSpace (measuredTicks desiredUs : Int) : Bool :=
  decide (measuredTicks ≥ ticksLow (desiredUs - markExcessMicros)) &&
    decide (measuredTicks ≤ ticksHigh (desiredUs - markExcessMicros))

/-- An `unsigned int` handed over as an `int`. -/
def toInt (x : UInt16) : Int := x.toInt16.toInt

def necBits : Nat := 32
def necHeaderMark : Nat := 9000
def necHeaderSpace : Nat := 4500
def necBitMark : Nat := 560
def necOneSpace : Nat := 1690
def necZeroSpace : Nat := 560
def necRepeatSpace : Nat := 2250

/-- `REPEAT`. -/
def repeatCode : BitVec 32 := 0xFFFFFFFF#32

/-! ### The sender -/

/-- `sendPulseDistanceWidthData`, the highest bit first.  The mask is the one of
bit `k` while `k + 1` bits are left. -/
def sendPulseDistanceWidthData (oneMarkMicros oneSpaceMicros zeroMarkMicros zeroSpaceMicros : Nat)
    (data : BitVec 32) : Nat → List Nat
  | 0 => []
  | k + 1 =>
      (if data &&& 1#32 <<< k ≠ 0#32 then [oneMarkMicros, oneSpaceMicros]
        else [zeroMarkMicros, zeroSpaceMicros]) ++
      sendPulseDistanceWidthData oneMarkMicros oneSpaceMicros zeroMarkMicros zeroSpaceMicros data k

/-- `sendNECRepeat()`: the marks and spaces, in turn. -/
def sendNECRepeat : List Nat := [necHeaderMark, necRepeatSpace, necBitMark]

/-- `sendNEC(data, nbits, repeat)`. -/
def sendNEC (data : BitVec 32) (nbits : Nat) (repeats : Bool) : List Nat :=
  if data = repeatCode ∨ repeats then sendNECRepeat
  else
    [necHeaderMark, necHeaderSpace] ++
      sendPulseDistanceWidthData necBitMark necOneSpace necBitMark necZeroSpace data nbits ++
      [necBitMark]

/-! ### The decoder -/

/-- `decode_results`, as far as the decoder and the sketch use it. -/
structure DecodeResults where
  value : BitVec 32
  bits : Nat
  isRepeat : Bool
  rawbuf : Nat → UInt16
  rawlen : Nat
  overflow : Bool

/-- `decodePulseDistanceData`, the highest bit first, with the bits that are
left, the offset and what has been decoded.  Entries that are no bit give 0. -/
def decodePulseDistanceData (rawbuf : Nat → UInt16)
    (bitMarkMicros oneSpaceMicros zeroSpaceMicros : Nat) : Nat → Nat → BitVec 32 → BitVec 32
  | 0, _, decodedData => decodedData
  | n + 1, startOffset, decodedData =>
      if !matchMark (toInt (rawbuf startOffset)) bitMarkMicros then 0
      else if matchSpace (toInt (rawbuf (startOffset + 1))) oneSpaceMicros then
        decodePulseDistanceData rawbuf bitMarkMicros oneSpaceMicros zeroSpaceMicros n
          (startOffset + 2) (decodedData <<< 1 ||| 1)
      else if matchSpace (toInt (rawbuf (startOffset + 1))) zeroSpaceMicros then
        decodePulseDistanceData rawbuf bitMarkMicros oneSpaceMicros zeroSpaceMicros n
          (startOffset + 2) (decodedData <<< 1 ||| 0)
      else 0

/-- `decodeNEC()`. -/
def decodeNEC (r : DecodeResults) : Bool × DecodeResults :=
  if !matchMark (toInt (r.rawbuf 1)) necHeaderMark then (false, r)
  else if r.rawlen = 4 ∧ matchSpace (toInt (r.rawbuf 2)) necRepeatSpace ∧
      matchMark (toInt (r.rawbuf 3)) necBitMark then
    (true, { r with bits := 0, value := repeatCode, isRepeat := true })
  else if r.rawlen < 2 * necBits + 4 then (false, r)
  else if !matchSpace (toInt (r.rawbuf 2)) necHeaderSpace then (false, r)
  else
    (true, { r with
      bits := necBits
      value := decodePulseDistanceData r.rawbuf necBitMark necOneSpace necZeroSpace necBits 3 0 })

/-! ### What the entries spell -/

/-- An entry is taken for a duration of the level. -/
def Accepts (a : Irdata) (x : UInt16) (us : Nat) : Bool :=
  match a with
  | .mark => matchMark (toInt x) us
  | .space => matchSpace (toInt x) us

/-- The entries from `offset` on are taken for the durations, in turn from the
level `a` on. -/
def Recognised (rawbuf : Nat → UInt16) : Nat → Irdata → List Nat → Prop
  | _, _, [] => True
  | offset, a, us :: rest =>
      Accepts a (rawbuf offset) us = true ∧ Recognised rawbuf (offset + 1) a.other rest

instance decidableRecognised (rawbuf : Nat → UInt16) :
    ∀ (offset : Nat) (a : Irdata) (us : List Nat), Decidable (Recognised rawbuf offset a us)
  | _, _, [] => inferInstanceAs (Decidable True)
  | offset, a, us :: rest =>
      have : Decidable (Recognised rawbuf (offset + 1) a.other rest) :=
        decidableRecognised rawbuf (offset + 1) a.other rest
      inferInstanceAs (Decidable (Accepts a (rawbuf offset) us = true ∧
        Recognised rawbuf (offset + 1) a.other rest))

/-- The durations of some bits. -/
def pulses (bs : List Bool) : List Nat :=
  bs.flatMap fun b => [necBitMark, if b then necOneSpace else necZeroSpace]

theorem pulses_cons (b : Bool) (bs : List Bool) :
    pulses (b :: bs) = necBitMark :: (if b then necOneSpace else necZeroSpace) :: pulses bs := rfl

theorem length_pulses (bs : List Bool) : (pulses bs).length = 2 * bs.length := by
  induction bs with
  | nil => rfl
  | cons b bs ih =>
    rw [pulses_cons, List.length_cons, List.length_cons, ih, List.length_cons]
    omega

theorem sendPulseDistanceWidthData_eq (data : BitVec 32) {k : Nat} (hk : k ≤ 32) :
    sendPulseDistanceWidthData necBitMark necOneSpace necBitMark necZeroSpace data k =
      pulses (bits data k) := by
  induction k with
  | zero => rfl
  | succ k ih =>
    rw [sendPulseDistanceWidthData, ih (by omega), bits, pulses_cons]
    have hbit := and_mask_ne_zero data (k := k) (by omega)
    cases hk : data.getLsbD k with
    | true =>
      rw [if_pos (hbit.mpr hk)]
      rfl
    | false =>
      rw [if_neg (fun hne => by simp [hbit.mp hne] at hk)]
      rfl

theorem sendNEC_data {data : BitVec 32} (h : data ≠ repeatCode) :
    sendNEC data necBits false =
      necHeaderMark :: necHeaderSpace :: (pulses (bits data 32) ++ [necBitMark]) := by
  have hnot : ¬ (data = repeatCode ∨ false = true) := by simp [h]
  rw [sendNEC, if_neg hnot, necBits, sendPulseDistanceWidthData_eq data (Nat.le_refl 32)]
  rfl

section Recognised

variable {rawbuf : Nat → UInt16}

theorem recognised_append {offset : Nat} {a : Irdata} {us vs : List Nat} :
    Recognised rawbuf offset a (us ++ vs) ↔
      Recognised rawbuf offset a us ∧
        Recognised rawbuf (offset + us.length) (if us.length % 2 = 0 then a else a.other) vs := by
  induction us generalizing offset a with
  | nil => exact ⟨fun h => ⟨trivial, h⟩, fun h => h.2⟩
  | cons u us ih =>
    have hlevel : (if us.length % 2 = 0 then a.other else a.other.other) =
        if (us.length + 1) % 2 = 0 then a else a.other := by
      rw [Irdata.other_other]
      split_ifs <;> first | rfl | omega
    rw [List.cons_append, Recognised, Recognised, ih, List.length_cons, hlevel, and_assoc,
      Nat.add_right_comm, Nat.add_assoc offset us.length 1]

/-- A space is not taken for both a zero and a one. -/
theorem matchSpace_zero {x : Int} (h : matchSpace x necZeroSpace = true) :
    matchSpace x necOneSpace = false := by
  have hzero : ticksHigh ((necZeroSpace : Int) - markExcessMicros) = 12 := by decide
  have hone : ticksLow ((necOneSpace : Int) - markExcessMicros) = 23 := by decide
  rw [matchSpace, Bool.and_eq_true, decide_eq_true_eq, decide_eq_true_eq, hzero] at h
  rw [matchSpace, Bool.and_eq_false_iff, decide_eq_false_iff_not, hone]
  exact Or.inl (by omega)

/-- One bit. -/
theorem decodePulseDistanceData_bit {offset n : Nat} {b : Bool} {data : BitVec 32}
    (hmark : matchMark (toInt (rawbuf offset)) necBitMark = true)
    (hspace : matchSpace (toInt (rawbuf (offset + 1)))
      (if b then necOneSpace else necZeroSpace : Nat) = true) :
    decodePulseDistanceData rawbuf necBitMark necOneSpace necZeroSpace (n + 1) offset data =
      decodePulseDistanceData rawbuf necBitMark necOneSpace necZeroSpace n (offset + 2)
        (shiftIn data b) := by
  rw [decodePulseDistanceData, hmark]
  cases b with
  | true =>
    rw [if_pos rfl] at hspace
    simp [hspace, shiftIn]
  | false =>
    rw [if_neg Bool.false_ne_true] at hspace
    simp [hspace, matchSpace_zero hspace, shiftIn]

/-- **Bits that are spelled are decoded.** -/
theorem decodePulseDistanceData_of_recognised {offset : Nat} {bs : List Bool}
    (h : Recognised rawbuf offset .mark (pulses bs)) (data : BitVec 32) :
    decodePulseDistanceData rawbuf necBitMark necOneSpace necZeroSpace bs.length offset data =
      bs.foldl shiftIn data := by
  induction bs generalizing offset data with
  | nil => rfl
  | cons b bs ih =>
    rw [pulses_cons] at h
    obtain ⟨hmark, hspace, hrest⟩ := h
    rw [List.length_cons, decodePulseDistanceData_bit hmark hspace, ih hrest, List.foldl_cons]

/-- **What is decoded is spelled**, or it is 0. -/
theorem recognised_of_decodePulseDistanceData (rawbuf : Nat → UInt16) (n offset : Nat)
    (data : BitVec 32) :
    decodePulseDistanceData rawbuf necBitMark necOneSpace necZeroSpace n offset data = 0 ∨
      ∃ bs : List Bool, bs.length = n ∧ Recognised rawbuf offset .mark (pulses bs) ∧
        decodePulseDistanceData rawbuf necBitMark necOneSpace necZeroSpace n offset data =
          bs.foldl shiftIn data := by
  induction n generalizing offset data with
  | zero => exact Or.inr ⟨[], rfl, trivial, rfl⟩
  | succ n ih =>
    by_cases hmark : matchMark (toInt (rawbuf offset)) necBitMark = true
    · by_cases hspace : ∃ b : Bool, matchSpace (toInt (rawbuf (offset + 1)))
          (if b then necOneSpace else necZeroSpace : Nat) = true
      · obtain ⟨b, hspace⟩ := hspace
        rw [decodePulseDistanceData_bit hmark hspace]
        rcases ih (offset + 2) (shiftIn data b) with hzero | ⟨bs, hlen, hrest, heq⟩
        · exact Or.inl hzero
        · exact Or.inr ⟨b :: bs, by rw [List.length_cons, hlen], ⟨hmark, hspace, hrest⟩, heq⟩
      · refine Or.inl ?_
        have hone : matchSpace (toInt (rawbuf (offset + 1))) necOneSpace = false :=
          Bool.eq_false_iff.mpr fun h => hspace ⟨true, h⟩
        have hzero : matchSpace (toInt (rawbuf (offset + 1))) necZeroSpace = false :=
          Bool.eq_false_iff.mpr fun h => hspace ⟨false, h⟩
        simp [decodePulseDistanceData, hone, hzero]
    · refine Or.inl ?_
      rw [Bool.not_eq_true] at hmark
      simp [decodePulseDistanceData, hmark]

end Recognised

/-! ### The decoder and the sender -/

/-- **A code that is spelled is decoded**, whatever follows it. -/
theorem decodeNEC_of_recognised {v : BitVec 32} {r : DecodeResults}
    (h : Recognised r.rawbuf 1 .mark (necHeaderMark :: necHeaderSpace :: pulses (bits v 32)))
    (hlen : 2 * necBits + 4 ≤ r.rawlen) :
    (decodeNEC r).1 = true ∧ (decodeNEC r).2.value = v := by
  obtain ⟨hmark, hspace, hrest⟩ := h
  have hfirst : matchMark (toInt (r.rawbuf 1)) necHeaderMark = true := hmark
  have hsecond : matchSpace (toInt (r.rawbuf 2)) necHeaderSpace = true := hspace
  have hfour : r.rawlen ≠ 4 := by
    rw [necBits] at hlen
    omega
  have hpulses := decodePulseDistanceData_of_recognised hrest 0#32
  rw [length_bits, foldl_shiftIn] at hpulses
  rw [decodeNEC, if_neg (by simp [hfirst]), if_neg (by simp [hfour]),
    if_neg (Nat.not_lt.mpr hlen), if_neg (by simp [hsecond])]
  exact ⟨rfl, hpulses⟩

/-- **What is sent is received**, from entries taken for the durations sent. -/
theorem decodeNEC_sendNEC {data : BitVec 32} {repeats : Bool} {r : DecodeResults}
    (h : Recognised r.rawbuf 1 .mark (sendNEC data necBits repeats))
    (hlen : r.rawlen = 1 + (sendNEC data necBits repeats).length) :
    (decodeNEC r).1 = true ∧ (decodeNEC r).2.value = if repeats then repeatCode else data := by
  by_cases hrepeat : data = repeatCode ∨ repeats = true
  · have hsent : sendNEC data necBits repeats = sendNECRepeat := by rw [sendNEC, if_pos hrepeat]
    have hvalue : (if repeats then repeatCode else data) = repeatCode := by
      rcases hrepeat with rfl | rfl
      · exact ite_self _
      · rfl
    rw [hsent] at h hlen
    obtain ⟨hmark, hspace, hlast, -⟩ := h
    have hfour : r.rawlen = 4 ∧ matchSpace (toInt (r.rawbuf 2)) necRepeatSpace = true ∧
        matchMark (toInt (r.rawbuf 3)) necBitMark = true := ⟨hlen, hspace, hlast⟩
    have hfirst : matchMark (toInt (r.rawbuf 1)) necHeaderMark = true := hmark
    rw [decodeNEC, hvalue, if_neg (by simp [hfirst]), if_pos hfour]
    exact ⟨rfl, rfl⟩
  · rw [not_or, Bool.not_eq_true] at hrepeat
    obtain ⟨hdata, rfl⟩ := hrepeat
    rw [sendNEC_data hdata, ← List.cons_append, ← List.cons_append] at h hlen
    rw [List.length_append, List.length_cons, List.length_cons, length_pulses, length_bits,
      List.length_singleton] at hlen
    exact decodeNEC_of_recognised (recognised_append.mp h).1 hlen.ge

/-- **What is received was sent**: the entries spell it, or it is a repetition,
or it is 0. -/
theorem decodeNEC_sound {r : DecodeResults} (h : (decodeNEC r).1 = true) :
    2 * necBits + 4 ≤ r.rawlen ∧ Recognised r.rawbuf 1 .mark
        (necHeaderMark :: necHeaderSpace :: pulses (bits (decodeNEC r).2.value 32)) ∨
      (decodeNEC r).2.value = repeatCode ∨ (decodeNEC r).2.value = 0 := by
  unfold decodeNEC at h ⊢
  split_ifs at h ⊢ with hmark hrepeat hlen hspace
  · exact Or.inr (Or.inl rfl)
  · rw [Bool.not_eq_true', Bool.not_eq_false] at hmark hspace
    rcases recognised_of_decodePulseDistanceData r.rawbuf necBits 3 0 with
      hzero | ⟨bs, hbs, hpulses, hvalue⟩
    · exact Or.inr (Or.inr hzero)
    · refine Or.inl ⟨Nat.not_lt.mp hlen, hmark, hspace, ?_⟩
      have hbits : bits (bs.foldl shiftIn 0#32) 32 = bs := by
        have hall : bits (bs.foldl shiftIn 0#32) bs.length = bs := bits_foldl_shiftIn hbs.le
        rw [hbs] at hall
        exact hall
      show Recognised r.rawbuf 3 .mark (pulses (bits (decodePulseDistanceData r.rawbuf necBitMark
        necOneSpace necZeroSpace necBits 3 0) 32))
      rw [hvalue]
      show Recognised r.rawbuf 3 .mark (pulses (bits (bs.foldl shiftIn 0#32) 32))
      rw [hbits]
      exact hpulses

/-- **Exactly what spells a code is decoded to it**, apart from the code of a
repetition and 0, which stands for a damaged code. -/
theorem decodeNEC_iff {v : BitVec 32} (hrepeat : v ≠ repeatCode) (hzero : v ≠ 0) (r : DecodeResults) :
    (decodeNEC r).1 = true ∧ (decodeNEC r).2.value = v ↔
      2 * necBits + 4 ≤ r.rawlen ∧
        Recognised r.rawbuf 1 .mark (necHeaderMark :: necHeaderSpace :: pulses (bits v 32)) := by
  constructor
  · rintro ⟨hfound, rfl⟩
    rcases decodeNEC_sound hfound with hspelled | hrep | hnone
    · exact hspelled
    · exact absurd hrep hrepeat
    · exact absurd hnone hzero
  · rintro ⟨hlen, hspelled⟩
    exact decodeNEC_of_recognised hspelled hlen

/-- A frame of one code, every entry the duration that was sent. -/
def frame (v : BitVec 32) : DecodeResults :=
  ⟨0, 0, false, fun i => UInt16.ofNat ((0 :: sendNEC v necBits false).getD i 0 / 50),
    1 + (sendNEC v necBits false).length, false⟩

theorem decodeNEC_iff_one :
    (decodeNEC (frame 0xFFA25D#32)).1 = true ∧
      (decodeNEC (frame 0xFFA25D#32)).2.value = 0xFFA25D#32 :=
  (decodeNEC_iff (by decide) (by decide) (frame 0xFFA25D#32)).mpr
    ⟨by decide, by decide +kernel⟩

end Polivunator.Remote
