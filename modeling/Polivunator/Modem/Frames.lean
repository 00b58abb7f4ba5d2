import Polivunator.Library.Framing
import Polivunator.Modem.SmsWork
import Mathlib.Tactic.SplitIfs

/-!
# Frames and lines

`SmsWork` is a reader in the sense of `Library/Framing.lean`: the delimiter is
the carriage return and the mode is `ismess`.  `receive_eq` says so, and
`work_receive` says that calls of `Work` at which no byte waits can be left
out, and that what is passed through from the serial port only adds its own
bytes.

A line of the modem is `\r\n`, a text, `\r\n`.  The frames it makes are the
text between a line feed and a carriage return and, before it, what was left of
the line above.  `receive_line` computes what a frame does from its text alone:
a `+CMTI` text asks for a message, a text is handed on if the frame before it
started with `+CMGR`, and the frame after it is a message if this one does.
-/

namespace Polivunator.SmsWork

open Labelled WString

/-! ### Runs -/

/-- The driver after some bytes from the modem. -/
def receiveAll (dev : SmsWork) (bytes : WString) : SmsWork :=
  run (fun d c => (receive d c).1) dev bytes

/-- What it has done meanwhile. -/
def receiveCalls (dev : SmsWork) (bytes : WString) : List SimCall :=
  history (fun d c => (receive d c).1) (fun d c => (receive d c).2) dev bytes

/-- The driver after some calls of `Work`, each with the bytes waiting then. -/
def workAll (dev : SmsWork) (waiting : List (Option Char × Option Char)) : SmsWork :=
  run (fun d b => (work d b.1 b.2).1) dev waiting

/-- What it has done meanwhile. -/
def workCalls (dev : SmsWork) (waiting : List (Option Char × Option Char)) : List SimCall :=
  history (fun d b => (work d b.1 b.2).1) (fun d b => (work d b.1 b.2).2) dev waiting

/-- A call that is not a byte passed through. -/
def ownCall : SimCall → Option SimCall
  | .pass _ => none
  | c => some c

theorem filterMap_ownCall_frameCalls (ismess : Bool) (buffer : WString) :
    (frameCalls ismess buffer).filterMap ownCall = frameCalls ismess buffer := by
  unfold frameCalls
  split_ifs <;> rfl

theorem filterMap_ownCall_receive (dev : SmsWork) (c : Char) :
    (receive dev c).2.filterMap ownCall = (receive dev c).2 := by
  unfold receive
  split_ifs
  · exact filterMap_ownCall_frameCalls _ _
  · rfl

/-- **Only the modem's bytes matter** to the driver's state and to its own calls. -/
theorem work_receive (dev : SmsWork) (waiting : List (Option Char × Option Char)) :
    workAll dev waiting = receiveAll dev (waiting.filterMap Prod.fst) ∧
      (workCalls dev waiting).filterMap ownCall =
        receiveCalls dev (waiting.filterMap Prod.fst) := by
  have idle : ∀ (d : SmsWork) (b : Option Char × Option Char), b.1 = none →
      (work d b.1 b.2).1 = d := by
    rintro d ⟨sim, usb⟩ rfl
    cases usb <;> rfl
  have busy : ∀ (d : SmsWork) (b : Option Char × Option Char) (c : Char), b.1 = some c →
      (work d b.1 b.2).1 = (receive d c).1 := by
    rintro d ⟨sim, usb⟩ c rfl
    cases usb <;> rfl
  have mute : ∀ (d : SmsWork) (b : Option Char × Option Char), b.1 = none →
      (work d b.1 b.2).2.filterMap ownCall = [] := by
    rintro d ⟨sim, usb⟩ rfl
    cases usb <;> rfl
  have speak : ∀ (d : SmsWork) (b : Option Char × Option Char) (c : Char), b.1 = some c →
      (work d b.1 b.2).2.filterMap ownCall = (receive d c).2 := by
    rintro d ⟨sim, usb⟩ c rfl
    cases usb with
    | none => exact filterMap_ownCall_receive d c
    | some u =>
      show ((receive d c).2 ++ [SimCall.pass u]).filterMap ownCall = _
      rw [List.filterMap_append, filterMap_ownCall_receive]
      exact List.append_nil _
  exact ⟨run_project idle busy dev waiting, history_project idle busy mute speak dev waiting⟩

/-! ### Frames -/

/-- The driver as a reader. -/
def reader (dev : SmsWork) : Framing.Reader Char Bool := ⟨dev.bufferSIM, dev.ismess⟩

theorem receive_eq (dev : SmsWork) (c : Char) :
    reader (receive dev c).1 = Framing.feed '\r' frameIsmess (reader dev) c ∧
      (receive dev c).2 = Framing.emit '\r' frameCalls (reader dev) c := by
  unfold receive Framing.feed Framing.emit
  split_ifs
  · exact ⟨rfl, rfl⟩
  · exact ⟨rfl, rfl⟩

theorem reader_inj {d e : SmsWork} (h : reader d = reader e) : d = e := by
  cases d
  cases e
  cases h
  rfl

theorem reader_receiveAll (dev : SmsWork) (bytes : WString) :
    reader (receiveAll dev bytes) = run (Framing.feed '\r' frameIsmess) (reader dev) bytes :=
  run_map (fun d c => (receive_eq d c).1) dev bytes

theorem receiveCalls_eq (dev : SmsWork) (bytes : WString) :
    receiveCalls dev bytes =
      history (Framing.feed '\r' frameIsmess) (Framing.emit '\r' frameCalls) (reader dev) bytes :=
  history_map (fun d c => (receive_eq d c).1) (fun d c => (receive_eq d c).2) dev bytes

theorem receiveAll_append (dev : SmsWork) (xs ys : WString) :
    receiveAll dev (xs ++ ys) = receiveAll (receiveAll dev xs) ys := run_append _ _ _ _

theorem receiveCalls_append (dev : SmsWork) (xs ys : WString) :
    receiveCalls dev (xs ++ ys) =
      receiveCalls dev xs ++ receiveCalls (receiveAll dev xs) ys := history_append _ _ _ _ _

theorem receive_frame {xs : WString} (h : '\r' ∉ xs) (dev : SmsWork) :
    receiveAll dev (xs ++ ['\r']) =
        ⟨[], frameIsmess dev.ismess (dev.bufferSIM ++ xs ++ ['\r'])⟩ ∧
      receiveCalls dev (xs ++ ['\r']) =
        frameCalls dev.ismess (dev.bufferSIM ++ xs ++ ['\r']) := by
  obtain ⟨hrun, hcalls⟩ := Framing.run_frame frameIsmess frameCalls h (reader dev)
  refine ⟨reader_inj ?_, ?_⟩
  · rw [reader_receiveAll, hrun]
    rfl
  · rw [receiveCalls_eq, hcalls]
    rfl

/-- The mode after a frame depends on that frame alone. -/
theorem frameIsmess_eq (ismess : Bool) (buffer : WString) :
    frameIsmess ismess buffer = isCmgr buffer := by
  unfold frameIsmess
  cases ismess <;> cases isCmgr buffer <;> rfl

/-! ### Lines -/

/-- The frame of a line with this text. -/
def lineFrame (text : WString) : WString := '\n' :: text ++ ['\r']

/-- A tag of five characters is compared with the start of the text. -/
theorem substring_lineFrame {tag text : WString} (hlen : tag.length = 5) (hcr : '\r' ∉ tag)
    (hnul : nul ∉ tag) : substring (lineFrame text) 1 6 = tag ↔ tag <+: text := by
  have hsub : substring (lineFrame text) 1 6 = cStr ((text ++ ['\r']).take 5) := by
    rw [substring_of_le (by omega)]
    rfl
  rw [hsub]
  constructor
  · intro h
    -- a C string of five characters inside five characters is all of them
    have hle : tag <+: (text ++ ['\r']).take 5 := h ▸ List.takeWhile_prefix _
    have heq : tag = (text ++ ['\r']).take 5 :=
      hle.eq_of_length_le (by rw [hlen]; exact List.length_take_le 5 _)
    have hpre : tag <+: text ++ ['\r'] := by
      rw [heq]
      exact List.take_prefix 5 _
    by_contra hn
    have hcr' : '\r' ∈ tag := by
      rcases List.prefix_concat_iff.mp hpre with he | he
      · rw [he]
        simp
      · exact absurd he hn
    exact hcr hcr'
  · rintro ⟨rest, rfl⟩
    rw [List.append_assoc, List.take_append_of_le_length (by omega), List.take_of_length_le (by omega),
      cStr_eq_self hnul]

theorem isCmti_lineFrame (text : WString) :
    isCmti (lineFrame text) = true ↔ "+CMTI".toList <+: text := by
  rw [isCmti, decide_eq_true_iff]
  exact substring_lineFrame (by decide) (by decide) (by decide)

theorem isCmgr_lineFrame (text : WString) :
    isCmgr (lineFrame text) = true ↔ "+CMGR".toList <+: text := by
  rw [isCmgr, decide_eq_true_iff]
  exact substring_lineFrame (by decide) (by decide) (by decide)

theorem messageText_lineFrame {text : WString} (h : nul ∉ text) :
    messageText (lineFrame text) = text := by
  have hcr : nul ∉ text ++ ['\r'] := by
    rw [List.mem_append, not_or]
    exact ⟨h, by decide⟩
  have htail : substringFrom (lineFrame text) 1 = text ++ ['\r'] := by
    rw [substringFrom_eq]
    exact cStr_eq_self hcr
  have hlen : lengthSub (lineFrame text) 2 = text.length := by
    rw [lengthSub, lineFrame]
    simp
  rw [messageText, htail, hlen, substring_of_le (Nat.zero_le _), List.drop_zero,
    List.take_left, cStr_eq_self h]

/-- The command for a `+CMTI` line: the text from its thirteenth character on,
with the carriage return of the frame and one more. -/
def lineCommand (text : WString) : WString :=
  cStr ("AT+CMGR=".toList ++ cStr ((text ++ ['\r']).drop 12) ++ "\r".toList)

theorem substringFrom_lineFrame (text : WString) :
    substringFrom (lineFrame text) 13 = cStr ((text ++ ['\r']).drop 12) := by
  rw [substringFrom_eq, lineFrame, List.cons_append, List.drop_succ_cons]

theorem cmgrCommand_lineFrame (text : WString) :
    cStr (cmgrCommand (lineFrame text)) = lineCommand text := by
  unfold cmgrCommand lineCommand
  rw [substringFrom_lineFrame]

/-- What the line after a finished frame does. -/
def lineCalls (ismess : Bool) (text : WString) : List SimCall :=
  (if "+CMTI".toList <+: text then [.write (lineCommand text)] else []) ++
    (if ismess then [.pt2Func text, .write "AT+CMGD=1\r".toList] else [])

theorem frameCalls_lineFrame {ismess : Bool} {text : WString} (h : ismess = true → nul ∉ text) :
    frameCalls ismess (lineFrame text) = lineCalls ismess text := by
  have hask : (if isCmti (lineFrame text) then
        [SimCall.write (cStr (cmgrCommand (lineFrame text)))] else []) =
      if "+CMTI".toList <+: text then [.write (lineCommand text)] else [] := by
    simp only [isCmti_lineFrame, cmgrCommand_lineFrame]
  have htext : (if ismess then
        [SimCall.pt2Func (messageText (lineFrame text)), .write "AT+CMGD=1\r".toList] else []) =
      if ismess then [.pt2Func text, .write "AT+CMGD=1\r".toList] else [] := by
    split_ifs with hm
    · rw [messageText_lineFrame (h hm)]
    · rfl
  rw [frameCalls, lineCalls, hask, htext]

theorem frameIsmess_lineFrame (ismess : Bool) (text : WString) :
    frameIsmess ismess (lineFrame text) = decide ("+CMGR".toList <+: text) := by
  rw [frameIsmess_eq, Bool.eq_iff_iff, isCmgr_lineFrame, decide_eq_true_iff]

/-- Between two frames. -/
def between (ismess : Bool) : SmsWork := ⟨[], ismess⟩

/-- **A line, from one frame to the next.** -/
theorem receive_line {ismess : Bool} {text : WString} (hcr : '\r' ∉ text)
    (hnul : ismess = true → nul ∉ text) :
    receiveAll (between ismess) (lineFrame text) =
        between (decide ("+CMGR".toList <+: text)) ∧
      receiveCalls (between ismess) (lineFrame text) = lineCalls ismess text := by
  have hcr' : '\r' ∉ '\n' :: text := by
    rw [List.mem_cons, not_or]
    exact ⟨by decide, hcr⟩
  obtain ⟨hrun, hcalls⟩ := receive_frame hcr' (between ismess)
  refine ⟨?_, ?_⟩
  · rw [lineFrame, hrun]
    exact congrArg between (frameIsmess_lineFrame ismess text)
  · rw [lineFrame, hcalls]
    exact frameCalls_lineFrame hnul

/-- Where the driver waits for the modem: no message is expected and nothing is
left over but the line feed of the last line. -/
def Ready (dev : SmsWork) : Prop :=
  dev.ismess = false ∧ (dev.bufferSIM = [] ∨ dev.bufferSIM = ['\n'])

instance (dev : SmsWork) : Decidable (Ready dev) :=
  inferInstanceAs (Decidable (dev.ismess = false ∧ (dev.bufferSIM = [] ∨ dev.bufferSIM = ['\n'])))

/-- Where a line leaves it. -/
def rest : SmsWork := ⟨['\n'], false⟩

theorem ready_rest : Ready rest := ⟨rfl, Or.inr rfl⟩

/-- The carriage return that opens the modem's next line does nothing. -/
theorem receive_opening {dev : SmsWork} (h : Ready dev) :
    receiveAll dev ['\r'] = between false ∧ receiveCalls dev ['\r'] = [] := by
  obtain ⟨buffer, ismess⟩ := dev
  obtain ⟨rfl, rfl | rfl⟩ := h
  · exact ⟨by decide, by decide⟩
  · exact ⟨by decide, by decide⟩

/-- The line feed that closes a line stays in the buffer. -/
theorem receive_closing (ismess : Bool) :
    receiveAll (between ismess) ['\n'] = ⟨['\n'], ismess⟩ ∧
      receiveCalls (between ismess) ['\n'] = [] := by
  cases ismess <;> exact ⟨by decide, by decide⟩

end Polivunator.SmsWork
