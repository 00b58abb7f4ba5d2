import Polivunator.Library.Labelled
import Polivunator.Library.Waveform
import Polivunator.Remote.Irparams
import Mathlib.Tactic.SplitIfs

/-!
# Recording a transmission

`Counting a es n` is the receiver in the middle of a stretch of samples at the
level `a`: it has written the entries `es` and has seen `n` samples of the
stretch after the first.  One more sample of the level only counts on
(`isr_same`), one of the other level writes the count and starts over
(`isr_other`), and a space that grows too long stops it (`isr_stop`).

`run_transmission` puts these together: a transmission that starts after a gap
leaves its stretches in `rawbuf`, each one in samples, after the gap.
-/

namespace Polivunator.Remote

open Labelled Waveform

/-- The state while a level is timed. -/
def Irdata.timing : Irdata → RcvState
  | .mark => .mark
  | .space => .space

theorem Irdata.timing_ne_stop (a : Irdata) : a.timing ≠ .stop := by cases a <;> decide

namespace Irparams

/-! ### One interrupt -/

theorem length_entries (p : Irparams) : p.entries.length = p.rawlen := by
  rw [entries, List.length_map, List.length_range]

theorem entries_record (next : RcvState) (p : Irparams) :
    (p.record next).entries = p.entries ++ [p.timer] := by
  rw [entries, record, List.range_succ, List.map_append]
  congr 1
  · refine List.map_congr_left fun i hi => ?_
    have hlt : i ≠ p.rawlen := (List.mem_range.mp hi).ne
    exact Function.update_of_ne hlt _ _
  · exact congrArg (fun x => [x]) (Function.update_self ..)

theorem isr_of_lt {p : Irparams} (h : p.rawlen < rawBufferLength) (irdata : Irdata) :
    p.isr irdata = advance irdata { p with timer := p.timer + 1 } := by
  have hnot : ¬ p.rawlen ≥ rawBufferLength := Nat.not_le.mpr h
  simp only [isr]
  rw [if_neg hnot]

/-- A full buffer stops the receiver. -/
theorem isr_of_ge {p : Irparams} (h : rawBufferLength ≤ p.rawlen) (irdata : Irdata) :
    p.isr irdata =
      { p with
        timer := if irdata = .mark then 0 else p.timer + 1
        overflow := true
        rcvstate := .stop } := by
  simp only [isr]
  rw [if_pos h]
  simp only [advance]
  split_ifs <;> rfl

/-- The receiver in the middle of a stretch. -/
structure Counting (a : Irdata) (es : List UInt16) (n : Nat) (p : Irparams) : Prop where
  rcvstate : p.rcvstate = a.timing
  entries : p.entries = es
  timer : p.timer = UInt16.ofNat n

/-- The receiver with a transmission in its buffer. -/
structure Ready (es : List UInt16) (n : Nat) (p : Irparams) : Prop where
  rcvstate : p.rcvstate = .stop
  entries : p.entries = es
  timer : p.timer = UInt16.ofNat n

section Step

variable {a : Irdata} {es : List UInt16} {n : Nat} {p : Irparams}

theorem advance_same (h : p.rcvstate = a.timing) (hgap : a = .space → ¬ gapTicks < p.timer) :
    advance a p = p := by
  cases a with
  | mark => simp [advance, show p.rcvstate = .mark from h]
  | space => simp [advance, show p.rcvstate = .space from h, hgap rfl]

theorem advance_other (h : p.rcvstate = a.timing) :
    advance a.other p = record a.other.timing p := by
  cases a with
  | mark => simp [advance, show p.rcvstate = .mark from h, Irdata.other, Irdata.timing]
  | space => simp [advance, show p.rcvstate = .space from h, Irdata.other, Irdata.timing]

/-- The interrupt counts, then looks at the pin. -/
theorem Counting.isr_eq (h : Counting a es n p) (hes : es.length < rawBufferLength) :
    ∃ q, Counting a es (n + 1) q ∧ ∀ irdata, p.isr irdata = advance irdata q := by
  have hlen : p.rawlen < rawBufferLength := by
    rw [← length_entries, h.entries]
    exact hes
  refine ⟨{ p with timer := p.timer + 1 }, ⟨h.rcvstate, h.entries, ?_⟩, isr_of_lt hlen⟩
  rw [UInt16.ofNat_add, ← h.timer]
  rfl

/-- **One more sample of the stretch.** -/
theorem Counting.isr_same (h : Counting a es n p) (hes : es.length < rawBufferLength)
    (hn : a = .space → n + 1 ≤ 100) : Counting a es (n + 1) (p.isr a) := by
  obtain ⟨q, hq, hisr⟩ := h.isr_eq hes
  rw [hisr, advance_same hq.rcvstate]
  · exact hq
  · intro ha
    have hle := hn ha
    rw [hq.timer, UInt16.lt_iff_toNat_lt, UInt16.toNat_ofNat_of_lt' (by rw [UInt16.size]; omega)]
    exact Nat.not_lt.mpr hle

/-- **The end of a stretch** writes its length. -/
theorem Counting.isr_other (h : Counting a es n p) (hes : es.length < rawBufferLength) :
    Counting a.other (es ++ [UInt16.ofNat (n + 1)]) 0 (p.isr a.other) := by
  obtain ⟨q, hq, hisr⟩ := h.isr_eq hes
  rw [hisr, advance_other hq.rcvstate]
  refine ⟨rfl, ?_, rfl⟩
  rw [entries_record, hq.entries, hq.timer]

/-- **A space too long for a transmission** ends it. -/
theorem Counting.isr_stop (h : Counting .space es 100 p) (hes : es.length < rawBufferLength) :
    Ready es 101 (p.isr .space) := by
  obtain ⟨q, hq, hisr⟩ := h.isr_eq hes
  have hgap : gapTicks < q.timer := by
    rw [hq.timer]
    decide
  have hstop : advance .space q = { q with rcvstate := .stop } := by
    simp [advance, show q.rcvstate = .space from hq.rcvstate, hgap]
  rw [hisr, hstop]
  exact ⟨rfl, hq.entries, hq.timer⟩

/-- **The first mark after a gap** starts a transmission. -/
theorem isr_start (hstate : p.rcvstate = .idle) (hlen : p.rawlen < rawBufferLength)
    (hgap : gapTicks ≤ p.timer + 1) : Counting .mark [p.timer + 1] 0 (p.isr .mark) := by
  have hnot : ¬ p.timer + 1 < gapTicks := UInt16.not_lt.mpr hgap
  have hstart : p.isr .mark =
      record .mark { p with overflow := false, rawlen := 0, timer := p.timer + 1 } := by
    rw [isr_of_lt hlen]
    simp [advance, hstate, hnot]
  rw [hstart]
  exact ⟨rfl, entries_record _ _, rfl⟩

end Step

/-! ### A stretch -/

/-- The receiver has not stopped. -/
def Running (p : Irparams) : Prop := p.rcvstate ≠ .stop

theorem Counting.running {a : Irdata} {es : List UInt16} {n : Nat} {p : Irparams}
    (h : Counting a es n p) : Running p := by
  rw [Running, h.rcvstate]
  exact a.timing_ne_stop

theorem Counting.run_same {a : Irdata} {es : List UInt16} {n m : Nat} {p : Irparams}
    (h : Counting a es n p) (hes : es.length < rawBufferLength) (hm : a = .space → n + m ≤ 100) :
    Counting a es (n + m) (run isr p (List.replicate m a)) ∧
      Throughout Running isr p (List.replicate m a) := by
  induction m generalizing n p with
  | zero => exact ⟨h, h.running⟩
  | succ m ih =>
    have hone := h.isr_same hes (fun ha => by have := hm ha; omega)
    obtain ⟨hrest, hall⟩ := ih hone (fun ha => by have := hm ha; omega)
    rw [List.replicate_succ, run_cons]
    refine ⟨?_, h.running, hall⟩
    rw [Nat.add_right_comm] at hrest
    exact hrest

/-! ### The stretches of a transmission -/

/-- What a stretch may be: not empty, and a space no longer than a gap. -/
def Fits (a : Irdata) (n : Nat) : Prop := 1 ≤ n ∧ (a = .space → n ≤ 101)

/-- What the stretches of the levels `a` and `a.other` in turn may be. -/
def Fit (a : Irdata) : List Nat → Prop
  | [] => True
  | n :: ns => Fits a n ∧ Fit a.other ns

/-- The level of the last of some stretches. -/
def lastLevel (a : Irdata) : List Nat → Irdata
  | [] => a
  | _ :: ns => lastLevel a.other ns

theorem lastLevel_eq (a : Irdata) (ns : List Nat) :
    lastLevel a ns = if ns.length % 2 = 0 then a else a.other := by
  induction ns generalizing a with
  | nil => rfl
  | cons n ns ih =>
    rw [lastLevel, ih, List.length_cons, Irdata.other_other]
    split_ifs <;> first | rfl | omega

/-- **Further stretches**: each writes the length of the one before. -/
theorem Counting.run_alternating {a : Irdata} {es : List UInt16} {n : Nat} {p : Irparams}
    (h : Counting a es n p) {ns : List Nat} (hfit : Fit a.other ns)
    (hlen : es.length + ns.length < rawBufferLength) :
    ∃ m, ((n + 1) :: ns).getLast? = some (m + 1) ∧
      Counting (lastLevel a ns) (es ++ ((n + 1) :: ns).dropLast.map UInt16.ofNat) m
        (run isr p (alternating a.other a ns)) ∧
      Throughout Running isr p (alternating a.other a ns) := by
  induction ns generalizing a es n p with
  | nil =>
    refine ⟨n, rfl, ?_, h.running⟩
    rw [List.dropLast_singleton, List.map_nil, List.append_nil]
    exact h
  | cons k ns ih =>
    obtain ⟨⟨hpos, hspace⟩, hrest⟩ := hfit
    rw [List.length_cons] at hlen
    obtain ⟨k, rfl⟩ : ∃ j, k = j + 1 := ⟨k - 1, by omega⟩
    have hchange := h.isr_other (by omega)
    have hnext : (es ++ [UInt16.ofNat (n + 1)]).length < rawBufferLength := by
      rw [List.length_append, List.length_singleton]
      omega
    obtain ⟨hsame, hallsame⟩ := hchange.run_same (m := k) hnext
      (fun ha => by have := hspace ha; omega)
    rw [Nat.zero_add] at hsame
    have hfit' : Fit a.other.other ns := hrest
    obtain ⟨m, hlast, hcount, hall⟩ := ih hsame hfit' (by
      rw [List.length_append, List.length_singleton]
      omega)
    rw [Irdata.other_other] at hcount hall
    refine ⟨m, ?_, ?_, ?_⟩
    · rw [List.getLast?_cons_cons]
      exact hlast
    · rw [alternating, List.replicate_succ, List.cons_append, run_cons, run_append,
        List.dropLast_cons_cons, List.map_cons, List.append_cons]
      exact hcount
    · rw [alternating, List.replicate_succ, List.cons_append]
      exact ⟨h.running, hallsame.append hall⟩

/-- **The stretches after a gap**, the last of them still counted. -/
theorem run_stretches {p : Irparams} (hstate : p.rcvstate = .idle)
    (hlen : p.rawlen < rawBufferLength) (hgap : gapTicks ≤ p.timer + 1) {ns : List Nat}
    (hne : ns ≠ []) (hfit : Fit .mark ns) (hshort : ns.length < rawBufferLength) :
    ∃ m, ns.getLast? = some (m + 1) ∧
      Counting (lastLevel .space ns) ((p.timer + 1) :: ns.dropLast.map UInt16.ofNat) m
        (run isr p (alternating .mark .space ns)) ∧
      Throughout Running isr p (alternating .mark .space ns) := by
  obtain ⟨n, ns, rfl⟩ := List.exists_cons_of_ne_nil hne
  obtain ⟨⟨hpos, -⟩, hrest⟩ := hfit
  obtain ⟨n, rfl⟩ : ∃ m, n = m + 1 := ⟨n - 1, by omega⟩
  have hone : [p.timer + 1].length < rawBufferLength := by
    rw [List.length_singleton]
    decide
  have hstart := isr_start hstate hlen hgap
  obtain ⟨hfirst, hallfirst⟩ := hstart.run_same (m := n) hone (fun ha => by cases ha)
  rw [Nat.zero_add] at hfirst
  rw [List.length_cons] at hshort
  obtain ⟨m, hlast, hcount, hall⟩ := hfirst.run_alternating hrest (by
    rw [List.length_singleton]
    omega)
  refine ⟨m, hlast, ?_, ?_⟩
  · rw [alternating, List.replicate_succ, List.cons_append, run_cons, run_append]
    exact hcount
  · rw [alternating, List.replicate_succ, List.cons_append]
    refine ⟨?_, hallfirst.append hall⟩
    rw [Running, hstate]
    decide

/-! ### A transmission -/

/-- The marks and spaces of a transmission, in samples. -/
structure Transmission where
  stretches : List Nat
  fit : Fit .mark stretches
  odd : stretches.length % 2 = 1
  short : stretches.length ≤ 99

namespace Transmission

/-- Its samples. -/
def samples (t : Transmission) : List Irdata := alternating .mark .space t.stretches

/-- The samples up to the end of the longest space a transmission may have. -/
def inside (t : Transmission) : List Irdata := t.samples ++ List.replicate 101 .space

theorem inside_eq (t : Transmission) :
    t.inside = alternating .mark .space (t.stretches ++ [101]) := by
  rw [alternating_append, if_neg (by rw [t.odd]; decide), inside, samples, alternating, alternating,
    List.append_nil]

theorem fit_snoc {a : Irdata} {ns : List Nat} {n : Nat} (h : Fit a ns)
    (hn : Fits (lastLevel a ns) n) : Fit a (ns ++ [n]) := by
  induction ns generalizing a with
  | nil => exact ⟨hn, trivial⟩
  | cons m ns ih => exact ⟨h.1, ih h.2 hn⟩

/-- What `rawbuf` holds after a transmission: the gap before it and its
stretches. -/
def recorded (t : Transmission) (gap : UInt16) : List UInt16 :=
  gap :: t.stretches.map UInt16.ofNat

theorem length_recorded (t : Transmission) (gap : UInt16) :
    (t.recorded gap).length < rawBufferLength := by
  have hshort := t.short
  rw [recorded, List.length_cons, List.length_map, rawBufferLength]
  omega

end Transmission

/-- **A transmission is recorded**, if the receiver waits for it and has seen a
gap.  It stops at the next space. -/
theorem run_transmission {p : Irparams} (hstate : p.rcvstate = .idle)
    (hlen : p.rawlen < rawBufferLength) (hgap : gapTicks ≤ p.timer + 1) (t : Transmission) :
    Counting .space (t.recorded (p.timer + 1)) 100 (run isr p t.inside) ∧
      Throughout Running isr p t.inside := by
  have hlevel : lastLevel .mark t.stretches = .space := by
    rw [lastLevel_eq, t.odd]
    rfl
  have hfit : Fit .mark (t.stretches ++ [101]) := by
    refine Transmission.fit_snoc t.fit ?_
    rw [hlevel]
    exact ⟨by decide, fun _ => Nat.le_refl _⟩
  have hshort := t.short
  obtain ⟨m, hm, hcount, hall⟩ := run_stretches hstate hlen hgap (by simp) hfit (by
    rw [List.length_append, List.length_singleton, rawBufferLength]
    omega)
  have hlast : lastLevel .space (t.stretches ++ [101]) = .space := by
    rw [lastLevel_eq, List.length_append, List.length_singleton,
      if_pos (by have := t.odd; omega)]
  rw [List.getLast?_concat, Option.some.injEq] at hm
  obtain rfl : m = 100 := by omega
  rw [hlast, List.dropLast_concat, ← Transmission.inside_eq] at hcount
  rw [← Transmission.inside_eq] at hall
  exact ⟨hcount, hall⟩

/-! ### After it -/

theorem Ready.isr_space {es : List UInt16} {n : Nat} {p : Irparams} (h : Ready es n p)
    (hes : es.length < rawBufferLength) : Ready es (n + 1) (p.isr .space) := by
  have hlen : p.rawlen < rawBufferLength := by
    rw [← length_entries, h.entries]
    exact hes
  have hstay : p.isr .space = { p with timer := p.timer + 1 } := by
    rw [isr_of_lt hlen]
    simp [advance, h.rcvstate]
  rw [hstay]
  refine ⟨h.rcvstate, h.entries, ?_⟩
  rw [UInt16.ofNat_add, ← h.timer]
  rfl

/-- It stays stopped, and counts the gap. -/
theorem Ready.run_space {es : List UInt16} {n : Nat} {p : Irparams} (h : Ready es n p)
    (hes : es.length < rawBufferLength) (m : Nat) :
    Ready es (n + m) (run isr p (List.replicate m .space)) := by
  induction m generalizing n p with
  | zero => exact h
  | succ m ih =>
    have hrest := ih (h.isr_space hes)
    rw [Nat.add_right_comm] at hrest
    exact hrest

end Irparams

end Polivunator.Remote
