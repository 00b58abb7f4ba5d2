import Polivunator.Remote.Turns

/-!
# From the remote control to the code

A remote control sends marks and spaces of some microseconds.  On the way marks
get longer and spaces shorter, or the other way round; `Arrive` allows every one
of them its own deviation.  The interrupt looks at the pin every 50 µs and
starts anywhere in between.

What is left of a transmission is a signal of its code, `Signal.arrived`, and
`sendNEC_heard` follows it from the library's own sender to the answer of
`decode`.  The answer is the code if the timer finds a gap before the first mark
and nothing at all if it does not, which is also the case after a silence of
3.28 s, when its sixteen bits start again from 0.
-/

namespace Polivunator.Remote

open Labelled Irparams Waveform

/-! ### On the way -/

/-- A mark may arrive 110 µs shorter or 290 µs longer than it was sent, and a
space 260 µs shorter or 40 µs longer. -/
def Arrives : Irdata → Nat → Nat → Prop
  | .mark, sent, got => sent ≤ got + 110 ∧ got ≤ sent + 290
  | .space, sent, got => sent ≤ got + 260 ∧ got ≤ sent + 40

/-- The durations that arrive of those sent, in turn from the level `a` on. -/
def Arrive : Irdata → List Nat → List Nat → Prop
  | _, [], got => got = []
  | a, u :: us, got => ∃ d ds, got = d :: ds ∧ Arrives a u d ∧ Arrive a.other us ds

/-- The durations a sender uses. -/
def Used : Irdata → Nat → Prop
  | .mark, u => u = necHeaderMark ∨ u = necBitMark
  | .space, u => u = necHeaderSpace ∨ u = necRepeatSpace ∨ u = necOneSpace ∨ u = necZeroSpace

/-- All durations of a list are used ones. -/
def AllUsed : Irdata → List Nat → Prop
  | _, [] => True
  | a, u :: us => Used a u ∧ AllUsed a.other us

theorem allUsed_pulses {us : List Nat} (h : AllUsed .mark us) (bs : List Bool) :
    AllUsed .mark (pulses bs ++ us) := by
  induction bs with
  | nil => exact h
  | cons b bs ih =>
    refine ⟨Or.inr rfl, ?_, ih⟩
    cases b with
    | true => exact Or.inr (Or.inr (Or.inl rfl))
    | false => exact Or.inr (Or.inr (Or.inr rfl))

theorem allUsed_sendNEC (data : BitVec 32) (repeats : Bool) :
    AllUsed .mark (sendNEC data necBits repeats) := by
  by_cases hrepeat : data = repeatCode ∨ repeats = true
  · rw [sendNEC, if_pos hrepeat]
    exact ⟨Or.inl rfl, Or.inr (Or.inl rfl), Or.inr rfl, trivial⟩
  · rw [not_or, Bool.not_eq_true] at hrepeat
    rw [hrepeat.2, sendNEC_data hrepeat.1]
    have hlast : AllUsed .mark [necBitMark] := ⟨Or.inr rfl, trivial⟩
    exact ⟨Or.inl rfl, Or.inl rfl, allUsed_pulses hlast _⟩

/-! ### One duration -/

theorem toInt_ofNat {n : Nat} (h : n < 32768) : toInt (UInt16.ofNat n) = n := by
  have hmod : ((n : Int)).bmod 65536 = n := Int.bmod_eq_of_le (by omega) (by omega)
  rw [toInt]
  simpa using hmod

/-- A space that arrives is shorter than a gap. -/
theorem brief_of_arrives {a : Irdata} {u d n : Nat} (hused : Used a u) (h : Arrives a u d)
    (hhi : n ≤ (d + (50 - 1)) / 50) : a = .space → n < 99 := by
  rintro rfl
  obtain ⟨-, hlong⟩ := h
  have hbound : u ≤ 4500 := by
    rcases hused with rfl | rfl | rfl | rfl <;> decide
  omega

/-- **A duration that arrives is recognised**, whether its count was rounded down
or up, and fits into a transmission. -/
theorem accepts_of_arrives {a : Irdata} {u d n : Nat} (hused : Used a u) (h : Arrives a u d)
    (hlo : d / 50 ≤ n) (hhi : n ≤ (d + (50 - 1)) / 50) :
    Accepts a (UInt16.ofNat n) u = true ∧ Fits a n := by
  cases a with
  | mark =>
    obtain ⟨hshort, hlong⟩ := h
    have hbound : u ≤ 9000 ∧ 560 ≤ u := by
      rcases hused with rfl | rfl <;> decide
    have hint := toInt_ofNat (n := n) (by omega)
    refine ⟨?_, by omega, fun ha => by cases ha⟩
    simp only [Accepts, matchMark, hint, Bool.and_eq_true, decide_eq_true_eq]
    rcases hused with rfl | rfl
    · have hlow : ticksLow ((necHeaderMark : Int) + markExcessMicros) = 135 := by decide
      have hhigh : ticksHigh ((necHeaderMark : Int) + markExcessMicros) = 228 := by decide
      rw [hlow, hhigh]
      rw [necHeaderMark] at hshort hlong
      omega
    · have hlow : ticksLow ((necBitMark : Int) + markExcessMicros) = 9 := by decide
      have hhigh : ticksHigh ((necBitMark : Int) + markExcessMicros) = 17 := by decide
      rw [hlow, hhigh]
      rw [necBitMark] at hshort hlong
      omega
  | space =>
    obtain ⟨hshort, hlong⟩ := h
    have hbound : u ≤ 4500 ∧ 560 ≤ u := by
      rcases hused with rfl | rfl | rfl | rfl <;> decide
    have hint := toInt_ofNat (n := n) (by omega)
    refine ⟨?_, by omega, fun _ => by omega⟩
    simp only [Accepts, matchSpace, hint, Bool.and_eq_true, decide_eq_true_eq]
    rcases hused with rfl | rfl | rfl | rfl
    · have hlow : ticksLow ((necHeaderSpace : Int) - markExcessMicros) = 65 := by decide
      have hhigh : ticksHigh ((necHeaderSpace : Int) - markExcessMicros) = 111 := by decide
      rw [hlow, hhigh]
      rw [necHeaderSpace] at hshort hlong
      omega
    · have hlow : ticksLow ((necRepeatSpace : Int) - markExcessMicros) = 32 := by decide
      have hhigh : ticksHigh ((necRepeatSpace : Int) - markExcessMicros) = 54 := by decide
      rw [hlow, hhigh]
      rw [necRepeatSpace] at hshort hlong
      omega
    · have hlow : ticksLow ((necOneSpace : Int) - markExcessMicros) = 23 := by decide
      have hhigh : ticksHigh ((necOneSpace : Int) - markExcessMicros) = 40 := by decide
      rw [hlow, hhigh]
      rw [necOneSpace] at hshort hlong
      omega
    · have hlow : ticksLow ((necZeroSpace : Int) - markExcessMicros) = 6 := by decide
      have hhigh : ticksHigh ((necZeroSpace : Int) - markExcessMicros) = 12 := by decide
      rw [hlow, hhigh]
      rw [necZeroSpace] at hshort hlong
      omega

/-! ### A transmission -/

theorem recognised_of_arrive {a : Irdata} {us ds ns : List Nat} (hused : AllUsed a us)
    (harrive : Arrive a us ds)
    (hcount : List.Forall₂ (fun d n => d / 50 ≤ n ∧ n ≤ (d + (50 - 1)) / 50) ds ns) :
    Fit a ns ∧ ns.length = us.length ∧ ds.length = us.length ∧
      Recognised (fun i => UInt16.ofNat (ns.getD i 0)) 0 a us := by
  induction us generalizing a ds ns with
  | nil =>
    obtain rfl : ds = [] := harrive
    cases hcount
    exact ⟨trivial, rfl, rfl, trivial⟩
  | cons u us ih =>
    obtain ⟨d, ds, rfl, hd, hds⟩ := harrive
    obtain ⟨hu, hus⟩ := hused
    cases hcount with
    | cons hn hns =>
      obtain ⟨haccept, hfits⟩ := accepts_of_arrives hu hd hn.1 hn.2
      obtain ⟨hfit, hlen, hlen', hrest⟩ := ih hus hds hns
      refine ⟨⟨hfits, hfit⟩, by rw [List.length_cons, hlen, List.length_cons],
        by rw [List.length_cons, hlen', List.length_cons], haccept, ?_⟩
      refine hrest.congr fun i _ => ?_
      rw [Nat.add_comm (0 + 1) i, Nat.zero_add, Nat.zero_add]
      rfl

theorem brief_of_arrive {a : Irdata} {us ds ns : List Nat} (hused : AllUsed a us)
    (harrive : Arrive a us ds)
    (hcount : List.Forall₂ (fun d n => d / 50 ≤ n ∧ n ≤ (d + (50 - 1)) / 50) ds ns) :
    Brief a ns := by
  induction us generalizing a ds ns with
  | nil =>
    obtain rfl : ds = [] := harrive
    cases hcount
    trivial
  | cons u us ih =>
    obtain ⟨d, ds, rfl, hd, hds⟩ := harrive
    obtain ⟨hu, hus⟩ := hused
    cases hcount with
    | cons hn hns => exact ⟨brief_of_arrives hu hd hn.2, ih hus hds hns⟩

/-- **What arrives of a transmission is a signal of its code**, whenever the
first interrupt comes. -/
def Signal.arrived {data : BitVec 32} {repeats : Bool} {ds : List Nat} {phase : Nat}
    (harrive : Arrive .mark (sendNEC data necBits repeats) ds) (hphase : phase < 50) : Signal where
  data := data
  repeats := repeats
  stretches := counts 50 phase ds
  fit := (recognised_of_arrive (allUsed_sendNEC data repeats) harrive (counts_near hphase ds)).1
  length_eq :=
    (recognised_of_arrive (allUsed_sendNEC data repeats) harrive (counts_near hphase ds)).2.1
  recognised :=
    (recognised_of_arrive (allUsed_sendNEC data repeats) harrive (counts_near hphase ds)).2.2.2

/-- What arrives as it was sent. -/
theorem arrive_refl (a : Irdata) (us : List Nat) : Arrive a us us := by
  induction us generalizing a with
  | nil => rfl
  | cons u us ih =>
    refine ⟨u, us, rfl, ?_, ih a.other⟩
    cases a <;> exact ⟨Nat.le_add_right .., Nat.le_add_right ..⟩

/-- A signal that arrives as it was sent, with an interrupt just when it starts. -/
def Signal.sent (data : BitVec 32) (repeats : Bool) : Signal :=
  .arrived (arrive_refl .mark (sendNEC data necBits repeats)) (show 0 < 50 by decide)

/-- The samples of what arrives, and of `m` spaces after it. -/
theorem samples_arrived {data : BitVec 32} {repeats : Bool} {ds : List Nat} {phase : Nat}
    (harrive : Arrive .mark (sendNEC data necBits repeats) ds) (hphase : phase < 50) (m : Nat) :
    (List.range ((counts 50 phase ds).sum + m)).map
        (fun i => wave Irdata.mark .space ds (phase + 50 * i)) =
      (Signal.arrived harrive hphase).transmission.samples ++ List.replicate m .space := by
  obtain ⟨-, -, hlen, -⟩ :=
    recognised_of_arrive (allUsed_sendNEC data repeats) harrive (counts_near hphase ds)
  have hodd : ¬ ds.length % 2 = 0 := by
    rw [hlen]
    rcases Signal.length_sendNEC data repeats with h | h <;> rw [h] <;> decide
  rw [samples_wave hphase, if_neg hodd]
  rfl

/-- After a gap the code is answered. -/
theorem decode_of_gap (others : DecodeResults → Bool × DecodeResults) (s : Signal) {m n : Nat}
    {r : Irrecv} (hm : 102 ≤ m) (h : Waiting n r.irparams) (hgap : Gap n) :
    ((run Irrecv.isr r (s.transmission.samples ++ List.replicate m .space)).decode others).2.map
        DecodeResults.value = some s.code := by
  obtain ⟨m, rfl⟩ : ∃ k, m = 101 + (1 + k) := ⟨m - 102, by omega⟩
  obtain ⟨hcount, -⟩ := run_transmission h.rcvstate h.rawlen (h.gap_timer hgap) s.transmission
  have hes := s.transmission.length_recorded (r.irparams.timer + 1)
  rw [List.replicate_add, List.replicate_add, ← List.append_assoc, ← Transmission.inside,
    Irrecv.run_isr, run_append, run_append]
  exact (Irrecv.decode_signal others (s := s) (r := ⟨_, r.results⟩)
    ((hcount.isr_stop hes).run_space hes m)).2

/-- Without a gap nothing is. -/
theorem decode_of_not_gap (others : DecodeResults → Bool × DecodeResults) {s : Signal} {m n : Nat}
    {r : Irrecv} (hbrief : Brief .mark s.stretches) (h : Waiting n r.irparams) (hgap : ¬ Gap n) :
    (run Irrecv.isr r (s.transmission.samples ++ List.replicate m .space)).decode others =
      (run Irrecv.isr r (s.transmission.samples ++ List.replicate m .space), none) := by
  obtain ⟨k, hlost⟩ := h.run_lost s.fit hbrief (fun _ => hgap) (fun ha => by cases ha)
  apply Irrecv.decode_of_running
  rw [Irrecv.run_isr, run_append]
  exact (hlost.run_space m).1.running

/-- **What is sent is heard** exactly if the timer finds a gap before it.  The
library's sender sends a code; its marks and spaces arrive within the tolerance;
the pin is looked at every 50 µs, from any moment on and until the gap after it is
long enough.  Then `decode` answers the code, or nothing if there was no gap. -/
theorem sendNEC_heard (others : DecodeResults → Bool × DecodeResults) {data : BitVec 32}
    {repeats : Bool} {ds : List Nat} {phase m n : Nat} {r : Irrecv}
    (harrive : Arrive .mark (sendNEC data necBits repeats) ds) (hphase : phase < 50)
    (hm : 102 ≤ m) (h : Waiting n r.irparams) :
    ((run Irrecv.isr r ((List.range ((counts 50 phase ds).sum + m)).map
        (fun i => wave Irdata.mark .space ds (phase + 50 * i)))).decode others).2.map
          DecodeResults.value =
      if Gap n then some (if repeats then repeatCode else data) else none := by
  rw [samples_arrived harrive hphase]
  by_cases hgap : Gap n
  · rw [if_pos hgap]
    exact decode_of_gap others (Signal.arrived harrive hphase) hm h hgap
  · have hbrief : Brief .mark (Signal.arrived harrive hphase).stretches :=
      brief_of_arrive (allUsed_sendNEC data repeats) harrive (counts_near hphase ds)
    rw [if_neg hgap, decode_of_not_gap others hbrief h hgap]
    rfl

/-- The receiver when it has seen a gap. -/
def Irrecv.rested : Irrecv := { Irrecv.start with irparams := { enableIRIn with timer := 99 } }

theorem Irrecv.rested_waiting : Waiting 99 Irrecv.rested.irparams := ⟨rfl, by decide, rfl⟩

theorem Irrecv.start_waiting (n : Nat) :
    Waiting n (run Irrecv.isr Irrecv.start (List.replicate n .space)).irparams := by
  have hstart : Waiting 0 Irrecv.start.irparams := ⟨rfl, by decide, rfl⟩
  have hcount := (hstart.run_space n).1
  rw [Nat.zero_add] at hcount
  rw [Irrecv.run_isr]
  exact hcount

/-- A code after a gap, and the same code after 65540 spaces, 3.277 s. -/
theorem sendNEC_heard_one :
    ((run Irrecv.isr Irrecv.rested ((List.range ((counts 50 0
        (sendNEC 0xFFA25D#32 necBits false)).sum + 102)).map
        (fun i => wave Irdata.mark .space (sendNEC 0xFFA25D#32 necBits false) (0 + 50 * i)))).decode
          (fun r => (false, r))).2.map DecodeResults.value = some 0xFFA25D#32 ∧
    ((run Irrecv.isr (run Irrecv.isr Irrecv.start (List.replicate 65540 .space))
        ((List.range ((counts 50 0 (sendNEC 0xFFA25D#32 necBits false)).sum + 102)).map
        (fun i => wave Irdata.mark .space (sendNEC 0xFFA25D#32 necBits false) (0 + 50 * i)))).decode
          (fun r => (false, r))).2.map DecodeResults.value = none := by
  exact ⟨sendNEC_heard (fun r => (false, r)) (arrive_refl .mark _) (by decide) (Nat.le_refl 102)
      Irrecv.rested_waiting,
    sendNEC_heard (fun r => (false, r)) (arrive_refl .mark _) (by decide) (Nat.le_refl 102)
      (Irrecv.start_waiting 65540)⟩

end Polivunator.Remote
