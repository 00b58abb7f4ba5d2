import Polivunator.Remote.Nec
import Polivunator.Remote.Record
import Mathlib.Data.List.GetD

/-!
# Receiving one code after the other

The interrupt and the sketch take turns with the receiver.  The sketch asks
`decode` in every pass of its loop; when that answers a code it acts on it and
calls `resume`.  A `Moment` is one interrupt or one of these calls.

A `Turn` is a transmission and all that happens up to the next one, with the
calls wherever the loop makes them: any number of times while the transmission
comes in, then once after it, and any number of times in the rest of the gap.
`receives` says that every turn delivers its code once and nothing else, in
order, as long as the timer finds the gaps long enough.  It has sixteen bits: a
silence of 65536 interrupts, 3.28 s, counts as none, and a signal that starts
after it, or up to 5 ms later, is lost (`Waiting.run_lost`).

The decoders that `decode` asks when `decodeNEC` has failed are a parameter of
which nothing is assumed.
-/

namespace Polivunator.Remote

open Labelled Irparams Waveform

/-- The interrupt's part of the receiver and the results of its decoders. -/
structure Irrecv where
  irparams : Irparams
  results : DecodeResults

/-- What `decode` starts with. -/
def Irrecv.copied (r : Irrecv) : DecodeResults :=
  { r.results with
    rawbuf := r.irparams.rawbuf
    rawlen := r.irparams.rawlen
    overflow := r.irparams.overflow
    isRepeat := false }

/-- The receiver after `enableIRIn()`. -/
def Irrecv.start : Irrecv := ⟨enableIRIn, ⟨0, 0, false, fun _ => 0, 0, false⟩⟩

/-- What can happen to the receiver. -/
inductive Moment
  | tick (irdata : Irdata)
  | decode
  | resume
  deriving DecidableEq

/-- What an interrupt reads. -/
def Moment.tick? : Moment → Option Irdata
  | .tick irdata => some irdata
  | _ => none

/-- One interrupt, the results left alone. -/
def Irrecv.isr (r : Irrecv) (irdata : Irdata) : Irrecv :=
  { r with irparams := r.irparams.isr irdata }

section Others

variable (others : DecodeResults → Bool × DecodeResults)

/-- `decode(&results)`, with the results if it returns `true`. -/
def Irrecv.decode (r : Irrecv) : Irrecv × Option DecodeResults :=
  if r.irparams.rcvstate ≠ .stop then (r, none)
  else
    let (found, results) := decodeNEC r.copied
    if found then (⟨r.irparams, results⟩, some results)
    else
      let (found, results) := others results
      if found then (⟨r.irparams, results⟩, some results)
      else (⟨r.irparams.resume, results⟩, none)

def Irrecv.step (r : Irrecv) : Moment → Irrecv
  | .tick irdata => r.isr irdata
  | .decode => (r.decode others).1
  | .resume => { r with irparams := r.irparams.resume }

/-- The code the sketch gets. -/
def Irrecv.answer (r : Irrecv) : Moment → List (BitVec 32)
  | .decode => ((r.decode others).2.map DecodeResults.value).toList
  | _ => []

/-! ### While nothing is ready -/

theorem Irrecv.decode_of_running {r : Irrecv} (h : Running r.irparams) :
    r.decode others = (r, none) := if_pos h

theorem Irrecv.run_isr (r : Irrecv) (ds : List Irdata) :
    run Irrecv.isr r ds = { r with irparams := run Irparams.isr r.irparams ds } := by
  induction ds generalizing r with
  | nil => rfl
  | cons d ds ih =>
    rw [run_cons, ih]
    rfl

/-- **Asking too early does nothing.** -/
theorem Irrecv.run_running {r : Irrecv} {ms : List Moment} (hcalls : .resume ∉ ms)
    (h : Throughout Running Irparams.isr r.irparams (ms.filterMap Moment.tick?)) :
    run (Irrecv.step others) r ms =
        { r with irparams := run Irparams.isr r.irparams (ms.filterMap Moment.tick?) } ∧
      history (Irrecv.step others) (Irrecv.answer others) r ms = [] := by
  have hall : Throughout (fun r => Running r.irparams) Irrecv.isr r (ms.filterMap Moment.tick?) :=
    Throughout.comap Irrecv.irparams (fun _ _ => rfl) h
  rw [← Irrecv.run_isr]
  refine run_of_throughout ?_ ?_ hall
  · intro r m hm hrunning hnone
    cases m with
    | tick irdata => simp [Moment.tick?] at hnone
    | decode =>
      rw [Irrecv.step, Irrecv.answer, Irrecv.decode_of_running others hrunning]
      exact ⟨rfl, rfl⟩
    | resume => exact absurd hm hcalls
  · intro r m irdata hsome
    cases m with
    | tick d =>
      obtain rfl := Option.some.inj hsome
      exact ⟨rfl, rfl⟩
    | decode => simp [Moment.tick?] at hsome
    | resume => simp [Moment.tick?] at hsome

end Others

/-! ### The gap -/

/-- The receiver waits for a transmission and has seen `n` spaces. -/
structure Irparams.Waiting (n : Nat) (p : Irparams) : Prop where
  rcvstate : p.rcvstate = .idle
  rawlen : p.rawlen < rawBufferLength
  timer : p.timer = UInt16.ofNat n

/-- The next mark comes after `n` spaces and finds that they were a gap.  The
timer has counted them, and the mark, modulo 2 ^ 16. -/
def Gap (n : Nat) : Prop := gapTicks.toNat ≤ (n + 1) % 2 ^ 16

instance (n : Nat) : Decidable (Gap n) :=
  inferInstanceAs (Decidable (gapTicks.toNat ≤ (n + 1) % 2 ^ 16))

theorem Irparams.Waiting.toNat_timer {n : Nat} {p : Irparams} (h : Waiting n p) :
    (p.timer + 1).toNat = (n + 1) % 2 ^ 16 := by
  have hsum : p.timer + 1 = UInt16.ofNat (n + 1) := by
    rw [h.timer, UInt16.ofNat_add]
    rfl
  rw [hsum, UInt16.toNat_ofNat']

theorem Irparams.Waiting.gap_timer {n : Nat} {p : Irparams} (h : Waiting n p) (hgap : Gap n) :
    gapTicks ≤ p.timer + 1 := by
  rw [UInt16.le_iff_toNat_le, h.toNat_timer]
  exact hgap

theorem Irparams.Waiting.running {n : Nat} {p : Irparams} (h : Waiting n p) : Running p := by
  rw [Running, h.rcvstate]
  decide

theorem Irparams.Waiting.isr_space {n : Nat} {p : Irparams} (h : Waiting n p) :
    Waiting (n + 1) (p.isr .space) := by
  have hstay : p.isr .space = { p with timer := p.timer + 1 } := by
    rw [isr_of_lt h.rawlen]
    simp [advance, h.rcvstate]
  rw [hstay]
  refine ⟨h.rcvstate, h.rawlen, ?_⟩
  rw [UInt16.ofNat_add, ← h.timer]
  rfl

theorem Irparams.Waiting.run_space {n : Nat} {p : Irparams} (h : Waiting n p) (m : Nat) :
    Waiting (n + m) (run Irparams.isr p (List.replicate m .space)) ∧
      Throughout Running Irparams.isr p (List.replicate m .space) := by
  induction m generalizing n p with
  | zero => exact ⟨h, h.running⟩
  | succ m ih =>
    obtain ⟨hrest, hall⟩ := ih h.isr_space
    rw [Nat.add_right_comm] at hrest
    exact ⟨hrest, h.running, hall⟩

/-! ### No gap -/

/-- **A mark without a gap before it** only starts the count over. -/
theorem Irparams.Waiting.isr_mark {n : Nat} {p : Irparams} (h : Waiting n p) (hgap : ¬ Gap n) :
    Waiting 0 (p.isr .mark) := by
  have hshort : p.timer + 1 < gapTicks := by
    rw [UInt16.lt_iff_toNat_lt, h.toNat_timer]
    exact Nat.not_le.mp hgap
  have hzero : p.isr .mark = { p with timer := 0 } := by
    rw [isr_of_lt h.rawlen]
    simp [advance, h.rcvstate, hshort]
  rw [hzero]
  exact ⟨h.rcvstate, h.rawlen, rfl⟩

theorem Irparams.Waiting.run_mark {n : Nat} {p : Irparams} (h : Waiting n p) (hgap : ¬ Gap n)
    (m : Nat) : Waiting 0 (run Irparams.isr p (List.replicate (m + 1) .mark)) := by
  induction m generalizing n p with
  | zero => exact h.isr_mark hgap
  | succ m ih =>
    rw [List.replicate_succ, run_cons]
    apply ih (h.isr_mark hgap)
    decide

/-- No space of the stretches is as long as a gap. -/
def Brief : Irdata → List Nat → Prop
  | _, [] => True
  | a, n :: ns => (a = .space → n < 99) ∧ Brief a.other ns

/-- **Marks and spaces without a gap before them are lost**, all of them: the
receiver waits as before. -/
theorem Irparams.Waiting.run_lost {a : Irdata} {n : Nat} {p : Irparams} {ns : List Nat}
    (h : Waiting n p) (hfit : Fit a ns) (hbrief : Brief a ns)
    (hmark : a = .mark → ¬ Gap n) (hspace : a = .space → n = 0) :
    ∃ m, Waiting m (run Irparams.isr p (alternating a a.other ns)) := by
  induction ns generalizing a n p with
  | nil => exact ⟨n, h⟩
  | cons k ns ih =>
    obtain ⟨⟨hpos, -⟩, hfit⟩ := hfit
    obtain ⟨hlt, hbrief⟩ := hbrief
    rw [alternating, run_append]
    cases a with
    | mark =>
      obtain ⟨k, rfl⟩ : ∃ j, k = j + 1 := ⟨k - 1, by omega⟩
      apply ih (h.run_mark (hmark rfl) k) hfit hbrief
      · intro ha
        cases ha
      · intro _
        rfl
    | space =>
      obtain rfl := hspace rfl
      have hk := hlt rfl
      have hcount := (h.run_space k).1
      rw [Nat.zero_add] at hcount
      apply ih hcount hfit hbrief
      · intro _ hgap
        rw [Gap, show gapTicks.toNat = 100 from rfl] at hgap
        omega
      · intro ha
        cases ha

/-! ### What the decoder finds -/

/-- A transmission of a code, or of a repetition, as the decoder knows it. -/
structure Signal where
  data : BitVec 32
  repeats : Bool
  stretches : List Nat
  fit : Fit .mark stretches
  length_eq : stretches.length = (sendNEC data necBits repeats).length
  recognised :
    Recognised (fun i => UInt16.ofNat (stretches.getD i 0)) 0 .mark (sendNEC data necBits repeats)

namespace Signal

/-- The code the sketch is to get. -/
def code (s : Signal) : BitVec 32 := if s.repeats then repeatCode else s.data

theorem length_sendNEC (data : BitVec 32) (repeats : Bool) :
    (sendNEC data necBits repeats).length = 3 ∨ (sendNEC data necBits repeats).length = 67 := by
  by_cases hrepeat : data = repeatCode ∨ repeats = true
  · rw [sendNEC, if_pos hrepeat]
    exact Or.inl rfl
  · rw [not_or, Bool.not_eq_true] at hrepeat
    rw [hrepeat.2, sendNEC_data hrepeat.1, List.length_cons, List.length_cons, List.length_append,
      length_pulses, Bits.length_bits]
    exact Or.inr rfl

/-- The marks and spaces of a signal. -/
def transmission (s : Signal) : Transmission where
  stretches := s.stretches
  fit := s.fit
  odd := by
    have hlen := s.length_eq
    rcases length_sendNEC s.data s.repeats with h | h <;> omega
  short := by
    have hlen := s.length_eq
    rcases length_sendNEC s.data s.repeats with h | h <;> omega

end Signal

theorem Recognised.congr {rawbuf rawbuf' : Nat → UInt16} {offset offset' : Nat} {a : Irdata}
    {us : List Nat} (h : Recognised rawbuf offset a us)
    (heq : ∀ i < us.length, rawbuf' (offset' + i) = rawbuf (offset + i)) :
    Recognised rawbuf' offset' a us := by
  induction us generalizing offset offset' a with
  | nil => trivial
  | cons u us ih =>
    have hhead : rawbuf' offset' = rawbuf offset := heq 0 (Nat.succ_pos _)
    refine ⟨by rw [hhead]; exact h.1, ih h.2 fun i hi => ?_⟩
    have hnext := heq (i + 1) (Nat.succ_lt_succ hi)
    rw [Nat.add_right_comm offset', Nat.add_right_comm offset]
    exact hnext

theorem Irparams.rawbuf_of_entries {es : List UInt16} {p : Irparams} (h : p.entries = es) {i : Nat}
    (hi : i < es.length) : p.rawbuf i = es.getD i 0 := by
  subst h
  rw [length_entries] at hi
  rw [List.getD_eq_getElem _ _ (by rw [length_entries]; exact hi)]
  simp [entries]

/-- **A recorded signal is decoded.** -/
theorem Irrecv.decode_signal (others : DecodeResults → Bool × DecodeResults) {s : Signal}
    {gap : UInt16} {n : Nat} {r : Irrecv} (h : Ready (s.transmission.recorded gap) n r.irparams) :
    (r.decode others).1.irparams = r.irparams ∧
      (r.decode others).2.map DecodeResults.value = some s.code := by
  have hlen : r.irparams.rawlen = 1 + (sendNEC s.data necBits s.repeats).length := by
    rw [← length_entries, h.entries, Transmission.recorded, List.length_cons, List.length_map,
      ← s.length_eq, Nat.add_comm]
    rfl
  have hrecognised : Recognised r.copied.rawbuf 1 .mark (sendNEC s.data necBits s.repeats) := by
    refine s.recognised.congr fun i hi => ?_
    rw [← s.length_eq] at hi
    have hentry := rawbuf_of_entries h.entries (i := i + 1) (by
      rw [Transmission.recorded, List.length_cons, List.length_map]
      exact Nat.succ_lt_succ hi)
    rw [Nat.add_comm 1 i, Nat.zero_add]
    refine hentry.trans ?_
    rw [Transmission.recorded, List.getD_cons_succ, List.getD_eq_getElem _ _ (by
      rw [List.length_map]; exact hi), List.getElem_map, List.getD_eq_getElem _ _ hi]
    rfl
  obtain ⟨hfound, hvalue⟩ := decodeNEC_sendNEC hrecognised hlen
  have hstop : ¬ r.irparams.rcvstate ≠ .stop := fun hne => hne h.rcvstate
  have hdecode : r.decode others = (⟨r.irparams, (decodeNEC r.copied).2⟩, some (decodeNEC r.copied).2) := by
    simp only [Irrecv.decode]
    rw [if_neg hstop, if_pos hfound]
  rw [hdecode]
  exact ⟨rfl, congrArg some hvalue⟩

end Polivunator.Remote
