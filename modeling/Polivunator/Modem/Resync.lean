import Polivunator.Modem.Texts

/-!
# After lost bytes

Bytes get lost or garbled on the way from the modem, so the driver may be found
in the middle of a frame, with anything in its buffer and either value of
`ismess`.  A carriage return clears the buffer, and the frame it closes decides
`ismess` alone.  So two carriage returns are enough: `resynchronises` says any
two drivers that have read them are in the same state and do the same from then
on, and that the damage is at most two texts that were none.
-/

namespace Polivunator.SmsWork

open Labelled WString

/-- A call of the driver that hands on a text. -/
def isText : SimCall → Bool
  | .pt2Func _ => true
  | _ => false

/-- Some calls of `Work`, up to the one that reads the second carriage return,
or some idle ones later. -/
structure TwoFrames where
  calls : List (Option Char × Option Char)
  first : WString
  second : WString
  first_noCr : '\r' ∉ first
  second_noCr : '\r' ∉ second
  bytes : calls.filterMap Prod.fst = first ++ ['\r'] ++ (second ++ ['\r'])

/-- Two drivers are in the same state after the two frames, which the second
frame determines, do the same from then on, and have handed on at most two texts
each. -/
structure Resynchronises (t : TwoFrames) : Prop where
  state : ∀ dev, workAll dev t.calls = ⟨[], isCmgr (t.second ++ ['\r'])⟩
  later : ∀ dev₁ dev₂ waiting,
    workCalls (workAll dev₁ t.calls) waiting = workCalls (workAll dev₂ t.calls) waiting
  texts : ∀ dev, (workCalls dev t.calls).countP isText ≤ 2

/-- A frame hands on one text at most. -/
theorem countP_frameCalls (ismess : Bool) (buffer : WString) :
    (frameCalls ismess buffer).countP isText ≤ 1 := by
  have hask : (if isCmti buffer then
      [SimCall.write (cStr (cmgrCommand buffer))] else []).countP isText = 0 := by
    split_ifs <;> rfl
  rw [frameCalls, List.countP_append, hask, Nat.zero_add]
  split_ifs
  · exact Nat.le_refl 1
  · exact Nat.zero_le 1

/-- Only the driver's own calls hand on texts. -/
theorem countP_ownCall (calls : List SimCall) :
    (calls.filterMap ownCall).countP isText = calls.countP isText := by
  induction calls with
  | nil => rfl
  | cons c calls ih =>
    cases c with
    | write text => exact ih
    | pass c => exact ih
    | pt2Func text =>
      show (SimCall.pt2Func text :: calls.filterMap ownCall).countP isText = _
      rw [List.countP_cons, List.countP_cons, ih]

theorem receive_two_frames (t : TwoFrames) (dev : SmsWork) :
    receiveAll dev (t.calls.filterMap Prod.fst) = ⟨[], isCmgr (t.second ++ ['\r'])⟩ ∧
      (receiveCalls dev (t.calls.filterMap Prod.fst)).countP isText ≤ 2 := by
  obtain ⟨hrun, hcalls⟩ := Framing.run_two_frames frameIsmess frameCalls t.first_noCr t.second_noCr
    (reader dev)
  rw [t.bytes]
  refine ⟨reader_inj ?_, ?_⟩
  · rw [reader_receiveAll, hrun, frameIsmess_eq _ (t.second ++ ['\r'])]
    rfl
  · rw [receiveCalls_eq, hcalls, List.countP_append]
    exact Nat.add_le_add (countP_frameCalls _ _) (countP_frameCalls _ _)

theorem TwoFrames.resync (t : TwoFrames) : Resynchronises t := by
  have hstate : ∀ dev, workAll dev t.calls = ⟨[], isCmgr (t.second ++ ['\r'])⟩ := by
    intro dev
    rw [(work_receive dev t.calls).1]
    exact (receive_two_frames t dev).1
  refine ⟨hstate, fun dev₁ dev₂ waiting => ?_, fun dev => ?_⟩
  · rw [hstate, hstate]
  · rw [← countP_ownCall, (work_receive dev t.calls).2]
    exact (receive_two_frames t dev).2

/-- **The driver finds its way back at the second carriage return**, whatever it
held before. -/
theorem resynchronises {waiting : List (Option Char × Option Char)}
    (h : 2 ≤ (waiting.filterMap Prod.fst).count '\r') :
    ∃ (t : TwoFrames) (later : List (Option Char × Option Char)),
      waiting = t.calls ++ later ∧ Resynchronises t := by
  obtain ⟨first, second, rest, hfirst, hsecond, hsplit⟩ := Framing.exists_two_frames h
  obtain ⟨calls, later, rfl, hbytes, -⟩ := List.filterMap_eq_append_iff.mp hsplit
  exact ⟨⟨calls, first, second, hfirst, hsecond, hbytes⟩, later, rfl, TwoFrames.resync _⟩

/-- The rest of a header, a text and the end of the reply. -/
theorem resynchronises_header :
    ∃ (t : TwoFrames) (later : List (Option Char × Option Char)),
      bytewise "GR: 1\r\nON\r\n\r\nOK\r\n".toList = t.calls ++ later ∧ Resynchronises t :=
  resynchronises (by decide)

end Polivunator.SmsWork
