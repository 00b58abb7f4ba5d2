import Polivunator.Remote.Heard

/-!
# The full buffer

The interrupt writes to `rawbuf` without a check of its own; what keeps it inside
is that a full buffer stops it before it looks at the pin.  `run_contained` is
every run, with the calls of the loop at any time.

A full buffer stays full.  `resume` does not empty it, and the next interrupt
stops the receiver again before anything can be recorded.  So light that changes
a hundred times without a gap is the last thing the receiver ever records.
`locked` says what the sketch sees from then on if it began with a code: that
code, from every call of `decode` with an interrupt before it, whatever is sent.
-/

namespace Polivunator.Remote

open Labelled Irparams Waveform

/-! ### Inside the buffer -/

/-- Nothing has been written behind the buffer. -/
structure Contained (memory : Nat → UInt16) (p : Irparams) : Prop where
  rawlen : p.rawlen ≤ rawBufferLength
  rawbuf : ∀ i, rawBufferLength ≤ i → p.rawbuf i = memory i

theorem Contained.record {memory : Nat → UInt16} {p : Irparams} (h : Contained memory p)
    (hlen : p.rawlen < rawBufferLength) (next : RcvState) : Contained memory (p.record next) := by
  refine ⟨hlen, fun i hi => ?_⟩
  have hne : i ≠ p.rawlen := (Nat.lt_of_lt_of_le hlen hi).ne'
  exact (Function.update_of_ne hne _ _).trans (h.rawbuf i hi)

/-- **One interrupt.** -/
theorem Contained.isr {memory : Nat → UInt16} {p : Irparams} (h : Contained memory p)
    (irdata : Irdata) : Contained memory (p.isr irdata) := by
  by_cases hlen : p.rawlen < rawBufferLength
  · have hcount : Contained memory { p with timer := p.timer + 1 } := ⟨h.rawlen, h.rawbuf⟩
    have hempty : Contained memory { p with timer := p.timer + 1, overflow := false, rawlen := 0 } :=
      ⟨Nat.zero_le _, h.rawbuf⟩
    rw [isr_of_lt hlen]
    unfold advance
    split
    · split_ifs
      · exact ⟨h.rawlen, h.rawbuf⟩
      · exact hempty.record (show 0 < rawBufferLength from by decide) .mark
      · exact hcount
    · split_ifs
      · exact hcount.record hlen .space
      · exact hcount
    · split_ifs
      · exact hcount.record hlen .mark
      · exact ⟨h.rawlen, h.rawbuf⟩
      · exact hcount
    · split_ifs <;> exact ⟨h.rawlen, h.rawbuf⟩
  · rw [isr_of_ge (Nat.not_lt.mp hlen)]
    exact ⟨h.rawlen, h.rawbuf⟩

section Others

variable (others : DecodeResults → Bool × DecodeResults)

/-- `decode` leaves the buffer alone. -/
theorem Irrecv.decode_irparams (r : Irrecv) :
    (r.decode others).1.irparams = r.irparams ∨
      (r.decode others).1.irparams = r.irparams.resume := by
  simp only [Irrecv.decode]
  split_ifs
  · exact Or.inl rfl
  · exact Or.inl rfl
  · exact Or.inl rfl
  · exact Or.inr rfl

/-- What the interrupt and `resume` keep, every run keeps. -/
theorem Irrecv.run_keeps {kept : Irparams → Prop}
    (hisr : ∀ p irdata, kept p → kept (p.isr irdata)) (hresume : ∀ p, kept p → kept p.resume)
    {r : Irrecv} (ms : List Moment) (h : kept r.irparams) :
    kept (run (Irrecv.step others) r ms).irparams := by
  have hstep : ∀ (r : Irrecv) (m : Moment), kept r.irparams → kept (r.step others m).irparams := by
    intro r m h
    cases m with
    | tick irdata => exact hisr _ irdata h
    | decode =>
      rcases r.decode_irparams others with hsame | hsame
      · rw [Irrecv.step, hsame]
        exact h
      · rw [Irrecv.step, hsame]
        exact hresume _ h
    | resume => exact hresume _ h
  exact run_invariant hstep ms h

/-- **Nothing is ever written behind the buffer**, in whatever order interrupts
and calls come and whatever the memory there holds. -/
theorem run_contained (memory : Nat → UInt16) (results : DecodeResults) (ms : List Moment) :
    Contained memory
      (run (Irrecv.step others) ⟨{ enableIRIn with rawbuf := memory }, results⟩ ms).irparams := by
  have hstart : Contained memory { enableIRIn with rawbuf := memory } :=
    ⟨Nat.zero_le _, fun _ _ => rfl⟩
  refine Irrecv.run_keeps others ?_ ?_ ms hstart
  · intro p irdata h
    exact h.isr irdata
  · intro p h
    exact ⟨h.rawlen, h.rawbuf⟩

/-! ### A full buffer -/

/-- The buffer is full, with these entries. -/
structure Full (memory : Nat → UInt16) (p : Irparams) : Prop where
  rawlen : p.rawlen = rawBufferLength
  rawbuf : p.rawbuf = memory

theorem Full.isr {memory : Nat → UInt16} {p : Irparams} (h : Full memory p) (irdata : Irdata) :
    Full memory (p.isr irdata) ∧ (p.isr irdata).rcvstate = .stop := by
  rw [isr_of_ge h.rawlen.ge]
  exact ⟨⟨h.rawlen, h.rawbuf⟩, rfl⟩

/-- **A full buffer stays full**, whatever is sent and whatever is called. -/
theorem Full.run {memory : Nat → UInt16} {r : Irrecv} (h : Full memory r.irparams)
    (ms : List Moment) : Full memory (run (Irrecv.step others) r ms).irparams := by
  refine Irrecv.run_keeps others ?_ ?_ ms h
  · intro p irdata h
    exact (h.isr irdata).1
  · intro p h
    exact ⟨h.rawlen, h.rawbuf⟩

/-- What `decode` answers from a full buffer that begins with a code. -/
theorem Full.decode {memory : Nat → UInt16} {r : Irrecv} {v : BitVec 32}
    (h : Full memory r.irparams)
    (hcode : Recognised memory 1 .mark (necHeaderMark :: necHeaderSpace :: pulses (Bits.bits v 32)))
    (hstop : r.irparams.rcvstate = .stop) :
    (r.decode others).2.map DecodeResults.value = some v := by
  have hlen : 2 * necBits + 4 ≤ r.copied.rawlen := by
    show _ ≤ r.irparams.rawlen
    rw [h.rawlen]
    decide
  obtain ⟨hfound, hvalue⟩ := decodeNEC_of_recognised (r := r.copied) (by
    show Recognised r.irparams.rawbuf _ _ _
    rw [h.rawbuf]
    exact hcode) hlen
  have hnot : ¬ r.irparams.rcvstate ≠ .stop := fun hne => hne hstop
  simp only [Irrecv.decode]
  rw [if_neg hnot, if_pos hfound]
  exact congrArg some hvalue

/-- The codes the sketch gets from such a buffer. -/
theorem Full.code_eq {memory : Nat → UInt16} {r : Irrecv} {v : BitVec 32}
    (h : Full memory r.irparams)
    (hcode : Recognised memory 1 .mark (necHeaderMark :: necHeaderSpace :: pulses (Bits.bits v 32)))
    {ms : List Moment} {code : BitVec 32}
    (hmem : code ∈ history (Irrecv.step others) (Irrecv.answer others) r ms) : code = v := by
  obtain ⟨early, m, late, -, hlabel⟩ := mem_history _ _ hmem
  have hfull := h.run others early
  cases m with
  | tick irdata => exact absurd hlabel List.not_mem_nil
  | decode =>
    by_cases hstop : (Labelled.run (Irrecv.step others) r early).irparams.rcvstate = .stop
    · rw [Irrecv.answer, hfull.decode others hcode hstop] at hlabel
      exact List.mem_singleton.mp hlabel
    · rw [Irrecv.answer, Irrecv.decode_of_running others hstop] at hlabel
      exact absurd hlabel List.not_mem_nil
  | resume => exact absurd hlabel List.not_mem_nil

/-! ### How it gets full -/

theorem fit_append {a : Irdata} {ms ns : List Nat} :
    Fit a (ms ++ ns) ↔ Fit a ms ∧ Fit (lastLevel a ms) ns := by
  induction ms generalizing a with
  | nil => exact ⟨fun h => ⟨trivial, h⟩, fun h => h.2⟩
  | cons m ms ih => rw [List.cons_append, Fit, Fit, ih, lastLevel, and_assoc]

/-- **A hundred and one marks and spaces without a gap** fill the buffer with the
first hundred, at the first sample of the last one. -/
theorem exists_full {p : Irparams} {n : Nat} (h : Waiting n p)
    (hgap : Gap n) {ns : List Nat} (hfit : Fit .mark ns)
    (hlen : rawBufferLength ≤ ns.length) :
    ∃ before rest, alternating .mark .space ns = before ++ .mark :: rest ∧
      Throughout Running isr p before ∧
      ((run isr p before).isr .mark).entries =
        (p.timer + 1) :: (ns.take 100).map UInt16.ofNat := by
  have hstart := h.gap_timer hgap
  rw [rawBufferLength] at hlen
  have hsplit := List.take_append_drop 100 ns
  have htake : (ns.take 100).length = 100 := List.length_take_of_le (by omega)
  have hne : ns.take 100 ≠ [] := by
    rw [← List.length_pos_iff_ne_nil, htake]
    decide
  obtain ⟨k, later, hdrop⟩ : ∃ k later, ns.drop 100 = k :: later :=
    List.exists_cons_of_ne_nil (by
      rw [ne_eq, List.drop_eq_nil_iff]
      omega)
  rw [hdrop] at hsplit
  rw [← hsplit] at hfit
  obtain ⟨hfirst, ⟨hpos, -⟩, -⟩ := fit_append.mp hfit
  obtain ⟨k, rfl⟩ : ∃ j, k = j + 1 := ⟨k - 1, by omega⟩
  obtain ⟨m, hlast, hcount, hall⟩ := run_stretches h.rcvstate h.rawlen hstart hne hfirst (by
    rw [htake, rawBufferLength]
    decide)
  have hlevel : lastLevel .space (ns.take 100) = .space := by
    rw [lastLevel_eq, htake]
    rfl
  have hshort : ((p.timer + 1) :: (ns.take 100).dropLast.map UInt16.ofNat).length
      < rawBufferLength := by
    rw [List.length_cons, List.length_map, List.length_dropLast, htake, rawBufferLength]
    decide
  rw [hlevel] at hcount
  refine ⟨alternating .mark .space (ns.take 100),
    List.replicate k .mark ++ alternating .space .mark later, ?_, hall, ?_⟩
  · rw [← hsplit, alternating_append, hsplit, htake, if_pos rfl, alternating, List.replicate_succ]
    rfl
  · have hfull := (hcount.isr_other hshort).entries
    refine hfull.trans ?_
    rw [List.cons_append, ← List.map_singleton, ← List.map_append,
      List.dropLast_append_getLast?]
    exact hlast

/-- The buffer gets full with the code, before anything is answered. -/
theorem exists_locked {r : Irrecv} {n : Nat} (h : Waiting n r.irparams)
    (hgap : Gap n) {ns : List Nat} (hfit : Fit .mark ns)
    (hlen : rawBufferLength ≤ ns.length) {us : List Nat} (hus : us.length ≤ 100)
    (hcode : Recognised (fun i => UInt16.ofNat (ns.getD i 0)) 0 .mark us)
    {during : List Moment} (hticks : during.filterMap Moment.tick? = alternating .mark .space ns)
    (hcalls : .resume ∉ during) :
    ∃ early late memory, during = early ++ late ∧
      history (Irrecv.step others) (Irrecv.answer others) r early = [] ∧
      Full memory (run (Irrecv.step others) r early).irparams ∧
      Recognised memory 1 .mark us := by
  obtain ⟨before, rest, hsamples, hall, hentries⟩ := exists_full h hgap hfit hlen
  -- the calls before the sample that fills the buffer, and all that comes after it
  rw [hsamples] at hticks
  obtain ⟨early, full, rfl, hearly, hfull⟩ := List.filterMap_eq_append_iff.mp hticks
  obtain ⟨calls, m, late, rfl, hquiet, hm, -⟩ := List.filterMap_eq_cons_iff.mp hfull
  obtain rfl : m = .tick .mark := by
    cases m with
    | tick irdata => exact congrArg Moment.tick (Option.some.inj hm)
    | decode => simp [Moment.tick?] at hm
    | resume => simp [Moment.tick?] at hm
  have hbefore : (early ++ calls).filterMap Moment.tick? = before := by
    rw [List.filterMap_append, hearly, List.filterMap_eq_nil_iff.mpr hquiet, List.append_nil]
  rw [← List.append_assoc] at hcalls ⊢
  have hnone : .resume ∉ early ++ calls := fun hmem => hcalls (List.mem_append_left _ hmem)
  rw [← hbefore] at hall hentries
  obtain ⟨hrun, hsilent⟩ := Irrecv.run_running others hnone hall
  have hstate : (run (Irrecv.step others) r (early ++ calls ++ [.tick .mark])).irparams =
      (run isr r.irparams ((early ++ calls).filterMap Moment.tick?)).isr .mark := by
    rw [run_snoc, hrun]
    rfl
  rw [← hstate] at hentries
  rw [rawBufferLength] at hlen
  have htake : (ns.take 100).length = 100 := List.length_take_of_le (by omega)
  refine ⟨early ++ calls ++ [.tick .mark], late, _, by simp, ?_, ⟨?_, rfl⟩, ?_⟩
  · rw [history_append, hsilent]
    rfl
  · rw [← length_entries, hentries, List.length_cons, List.length_map, htake]
    rfl
  · refine hcode.congr fun i hi => ?_
    have hentry := rawbuf_of_entries hentries (i := i + 1) (by
      rw [List.length_cons, List.length_map, htake]
      omega)
    rw [Nat.add_comm 1 i, Nat.zero_add]
    refine hentry.trans ?_
    rw [List.getD_cons_succ, List.getD_eq_getElem _ _ (by
      rw [List.length_map, htake]; omega), List.getElem_map, List.getElem_take,
      List.getD_eq_getElem _ _ (by omega)]

/-! ### A code and more without a gap -/

/-- A code, and no end of it. -/
def endless (v : BitVec 32) : List Nat :=
  counts 50 0 (necHeaderMark :: necHeaderSpace :: pulses (Bits.bits v 32)) ++ List.replicate 35 11

theorem fit_replicate (a : Irdata) (n : Nat) : Fit a (List.replicate n 11) := by
  induction n generalizing a with
  | zero => trivial
  | succ n ih => exact ⟨⟨by decide, fun _ => by decide⟩, ih a.other⟩

theorem endless_spec (v : BitVec 32) :
    Fit .mark (endless v) ∧ (endless v).length = rawBufferLength ∧
      Recognised (fun i => UInt16.ofNat ((endless v).getD i 0)) 0 .mark
        (necHeaderMark :: necHeaderSpace :: pulses (Bits.bits v 32)) := by
  have hused : AllUsed .mark (necHeaderMark :: necHeaderSpace :: pulses (Bits.bits v 32)) := by
    have hnil : AllUsed .mark [] := trivial
    have hpulses := allUsed_pulses hnil (Bits.bits v 32)
    rw [List.append_nil] at hpulses
    exact ⟨Or.inl rfl, Or.inl rfl, hpulses⟩
  have hlength : (necHeaderMark :: necHeaderSpace :: pulses (Bits.bits v 32)).length = 66 := by
    rw [List.length_cons, List.length_cons, length_pulses, Bits.length_bits]
  obtain ⟨hfit, hlen, -, hrecognised⟩ := recognised_of_arrive hused (arrive_refl .mark _)
    (counts_near (show 0 < 50 by decide) _)
  rw [hlength] at hlen
  refine ⟨fit_append.mpr ⟨hfit, fit_replicate _ 35⟩, ?_, ?_⟩
  · rw [endless, List.length_append, hlen, List.length_replicate]
    rfl
  · refine hrecognised.congr fun i hi => ?_
    rw [hlength] at hi
    show UInt16.ofNat ((endless v).getD (0 + i) 0) = _
    rw [endless, List.getD_append _ _ _ _ (by rw [hlen]; omega)]

/-! ### Locked -/

/-- **The receiver is locked.**  Too many marks and spaces without a gap, the
first of them a code: from then on nothing but this code is answered, by every
`decode` that has an interrupt before it, whatever comes and whoever calls
`resume`. -/
theorem locked {r : Irrecv} {n : Nat} (h : Waiting n r.irparams)
    (hgap : Gap n) {ns : List Nat} (hfit : Fit .mark ns)
    (hlen : rawBufferLength ≤ ns.length) {v : BitVec 32}
    (hcode : Recognised (fun i => UInt16.ofNat (ns.getD i 0)) 0 .mark
      (necHeaderMark :: necHeaderSpace :: pulses (Bits.bits v 32)))
    {during : List Moment} (hticks : during.filterMap Moment.tick? = alternating .mark .space ns)
    (hcalls : .resume ∉ during) (later : List Moment) :
    (∀ code ∈ history (Irrecv.step others) (Irrecv.answer others) r (during ++ later), code = v) ∧
      ∀ irdata, ((run (Irrecv.step others) r (during ++ later ++ [.tick irdata])).decode
        others).2.map DecodeResults.value = some v := by
  have hspelled : (necHeaderMark :: necHeaderSpace :: pulses (Bits.bits v 32)).length ≤ 100 := by
    rw [List.length_cons, List.length_cons, length_pulses, Bits.length_bits]
    decide
  obtain ⟨early, late, memory, rfl, hsilent, hfull, hmemory⟩ :=
    exists_locked others h hgap hfit hlen hspelled hcode hticks hcalls
  rw [List.append_assoc]
  constructor
  · intro code hmem
    rw [history_append, hsilent, List.nil_append] at hmem
    exact hfull.code_eq others hmemory hmem
  · intro irdata
    obtain ⟨hstill, hstop⟩ := (hfull.run others (late ++ later)).isr irdata
    rw [run_snoc, run_append]
    exact Full.decode others
      (r := (run (Irrecv.step others) (run (Irrecv.step others) r early) (late ++ later)).isr irdata)
      hstill hmemory hstop

end Others

theorem locked_one :
    ((run (Irrecv.step (fun r => (false, r))) Irrecv.rested
        ((alternating .mark .space (endless 0xFFA25D#32)).map Moment.tick ++
          [.decode, .resume, .tick .space, .resume] ++ [.tick .space])).decode
            (fun r => (false, r))).2.map DecodeResults.value = some 0xFFA25D#32 := by
  obtain ⟨hfit, hlen, hcode⟩ := endless_spec 0xFFA25D#32
  have hticks : ((alternating .mark .space (endless 0xFFA25D#32)).map Moment.tick).filterMap
      Moment.tick? = alternating .mark .space (endless 0xFFA25D#32) := by
    rw [List.filterMap_map]
    exact List.filterMap_some
  exact (locked (fun r => (false, r)) Irrecv.rested_waiting (by decide) hfit hlen.ge hcode hticks
    (by simp) [.decode, .resume, .tick .space, .resume]).2 .space

end Polivunator.Remote
