import Polivunator.Modem.Frames

/-!
# Decoding the modem's stream

What the modem sends is a sequence of units: a notification that a message has
come, the reply to a request for a message, or some other line.  A unit carries
the proofs that its parts are the texts a modem line can hold, and a message
body, in addition, that it does not start like a line of the modem's own.

`receive_reply` is the one computation behind this file and the two after it:
what a reply does for an arbitrary body.  `receive_units` then says a stream of
units is decoded without loss, duplication or reordering, one notification to
one request and one reply to one message handed on and one deletion, and
`work_units` says so of the calls of `Work` that feed it.
-/

namespace Polivunator.SmsWork

open Labelled WString

/-! ### Whole lines and replies -/

/-- `\r\n`, a text, `\r\n`. -/
def line (text : WString) : WString := '\r' :: (lineFrame text ++ ['\n'])

/-- The reply to a request: the modem's header, the body and `OK`. -/
def replyBytes (hdr body : WString) : WString :=
  '\r' :: (lineFrame ("+CMGR: ".toList ++ hdr) ++ (lineFrame body ++
    (lineFrame [] ++ (lineFrame "OK".toList ++ ['\n']))))

/-- The opening carriage return, then the rest. -/
theorem receive_cons {dev : SmsWork} (h : Ready dev) (bytes : WString) :
    receiveAll dev ('\r' :: bytes) = receiveAll (between false) bytes ∧
      receiveCalls dev ('\r' :: bytes) = receiveCalls (between false) bytes := by
  obtain ⟨hrun, hcalls⟩ := receive_opening h
  rw [show '\r' :: bytes = ['\r'] ++ bytes from rfl, receiveAll_append, receiveCalls_append, hrun,
    hcalls]
  exact ⟨rfl, rfl⟩

/-- A frame, then the rest. -/
theorem receive_lineFrame_append (ismess : Bool) {text : WString} (hcr : '\r' ∉ text)
    (hnul : ismess = true → nul ∉ text) (bytes : WString) :
    receiveAll (between ismess) (lineFrame text ++ bytes) =
        receiveAll (between (decide ("+CMGR".toList <+: text))) bytes ∧
      receiveCalls (between ismess) (lineFrame text ++ bytes) =
        lineCalls ismess text ++
          receiveCalls (between (decide ("+CMGR".toList <+: text))) bytes := by
  obtain ⟨hrun, hcalls⟩ := receive_line hcr hnul
  rw [receiveAll_append, receiveCalls_append, hrun, hcalls]
  exact ⟨rfl, rfl⟩

theorem receive_whole_line {dev : SmsWork} (h : Ready dev) {text : WString} (hcr : '\r' ∉ text)
    (hcmgr : ¬ "+CMGR".toList <+: text) :
    receiveAll dev (line text) = rest ∧ receiveCalls dev (line text) = lineCalls false text := by
  obtain ⟨hrun, hcalls⟩ := receive_cons h (lineFrame text ++ ['\n'])
  obtain ⟨hrun', hcalls'⟩ :=
    receive_lineFrame_append false hcr (fun hm => by simp at hm) ['\n']
  obtain ⟨hclose, hquiet⟩ := receive_closing false
  rw [decide_eq_false hcmgr] at hrun' hcalls'
  refine ⟨?_, ?_⟩
  · rw [line, hrun, hrun', hclose]
    rfl
  · rw [line, hcalls, hcalls', hquiet, List.append_nil]

theorem lineCalls_header (hdr : WString) : lineCalls false ("+CMGR: ".toList ++ hdr) = [] := by
  rfl

/-- **A reply, for an arbitrary body.**  The body is handed on and a deletion
is requested; a body that starts like a line of the modem is taken for one as
well. -/
theorem receive_reply {dev : SmsWork} (h : Ready dev) {hdr body : WString} (hhdr : '\r' ∉ hdr)
    (hcr : '\r' ∉ body) (hnul : nul ∉ body) :
    receiveAll dev (replyBytes hdr body) = rest ∧
      receiveCalls dev (replyBytes hdr body) =
        lineCalls true body ++ lineCalls (decide ("+CMGR".toList <+: body)) [] := by
  have hhead : '\r' ∉ "+CMGR: ".toList ++ hdr := by
    rw [List.mem_append, not_or]
    exact ⟨by decide, hhdr⟩
  have hmess : decide ("+CMGR".toList <+: "+CMGR: ".toList ++ hdr) = true :=
    decide_eq_true ⟨": ".toList ++ hdr, rfl⟩
  obtain ⟨hrun₁, hcalls₁⟩ := receive_cons h (lineFrame ("+CMGR: ".toList ++ hdr) ++
    (lineFrame body ++ (lineFrame [] ++ (lineFrame "OK".toList ++ ['\n']))))
  obtain ⟨hrun₂, hcalls₂⟩ :=
    receive_lineFrame_append false hhead (fun hm => by simp at hm)
      (lineFrame body ++ (lineFrame [] ++ (lineFrame "OK".toList ++ ['\n'])))
  rw [hmess] at hrun₂ hcalls₂
  obtain ⟨hrun₃, hcalls₃⟩ :=
    receive_lineFrame_append true hcr (fun _ => hnul)
      (lineFrame [] ++ (lineFrame "OK".toList ++ ['\n']))
  obtain ⟨hrun₄, hcalls₄⟩ :=
    receive_lineFrame_append (decide ("+CMGR".toList <+: body))
      (show '\r' ∉ ([] : WString) by simp) (fun _ => by simp) (lineFrame "OK".toList ++ ['\n'])
  obtain ⟨hrun₅, hcalls₅⟩ :=
    receive_lineFrame_append (decide ("+CMGR".toList <+: ([] : WString)))
      (show '\r' ∉ "OK".toList by decide) (fun _ => by decide) ['\n']
  refine ⟨?_, ?_⟩
  · rw [replyBytes, hrun₁, hrun₂, hrun₃, hrun₄, hrun₅]
    rfl
  · rw [replyBytes, hcalls₁, hcalls₂, hcalls₃, hcalls₄, hcalls₅, lineCalls_header,
      List.nil_append]
    exact congrArg _ (List.append_nil _)

/-! ### Units -/

/-- A text a line can hold. -/
structure LineText where
  text : WString
  noCr : '\r' ∉ text
  noNul : nul ∉ text

/-- A text that does not start like a line of the modem's own. -/
structure PlainText extends LineText where
  notCmgr : ¬ "+CMGR".toList <+: text
  notCmti : ¬ "+CMTI".toList <+: text

/-- The two characters that name the modem's memory. -/
structure MemoryName extends LineText where
  two : text.length = 2

/-- What the modem sends. -/
inductive ModemUnit
  /-- `+CMTI: "MM",IDX`. -/
  | notification (mm : MemoryName) (idx : LineText)
  /-- `+CMGR: HDR`, the body and `OK`. -/
  | reply (hdr : LineText) (body : PlainText)
  | other (text : PlainText)

/-- The text of a notification. -/
def notificationText (mm idx : WString) : WString :=
  "+CMTI: \"".toList ++ mm ++ "\",".toList ++ idx

namespace ModemUnit

def bytes : ModemUnit → WString
  | notification mm idx => line (notificationText mm.text idx.text)
  | reply hdr body => replyBytes hdr.text body.text
  | other text => line text.text

/-- What a unit is answered with. -/
def answer : ModemUnit → List SimCall
  | notification _ idx => [.write ("AT+CMGR=".toList ++ idx.text ++ "\r\r".toList)]
  | reply _ body => [.pt2Func body.text, .write "AT+CMGD=1\r".toList]
  | other _ => []

end ModemUnit

/-- What follows twelve characters is asked for. -/
theorem lineCommand_append {head idx : WString} (hlen : head.length = 12) (hidx : nul ∉ idx) :
    lineCommand (head ++ idx) = "AT+CMGR=".toList ++ idx ++ "\r\r".toList := by
  have hdrop : (head ++ idx ++ ['\r']).drop 12 = idx ++ ['\r'] := by
    rw [List.append_assoc, ← hlen, List.drop_left]
  have hcr : nul ∉ idx ++ ['\r'] := by
    rw [List.mem_append, not_or]
    exact ⟨hidx, by decide⟩
  have hcmd : nul ∉ "AT+CMGR=".toList ++ (idx ++ ['\r']) ++ "\r".toList := by
    rw [List.mem_append, List.mem_append, not_or, not_or]
    exact ⟨⟨by decide, hcr⟩, by decide⟩
  unfold lineCommand
  rw [hdrop, cStr_eq_self hcr, cStr_eq_self hcmd]
  simp

/-- The start of a notification, up to the slot. -/
theorem notificationText_eq (mm : MemoryName) (idx : WString) :
    ∃ head : WString, head.length = 12 ∧ '\r' ∉ head ∧
      "+CMTI".toList <+: head ∧ notificationText mm.text idx = head ++ idx := by
  refine ⟨"+CMTI: \"".toList ++ mm.text ++ "\",".toList, ?_, ?_, ?_, rfl⟩
  · rw [List.length_append, List.length_append, mm.two]
    rfl
  · rw [List.mem_append, List.mem_append, not_or, not_or]
    exact ⟨⟨by decide, mm.noCr⟩, by decide⟩
  · exact ⟨": \"".toList ++ mm.text ++ "\",".toList, rfl⟩

/-- The two tags exclude each other. -/
theorem not_cmgr_of_cmti {text : WString} (h : "+CMTI".toList <+: text) :
    ¬ "+CMGR".toList <+: text := by
  intro h'
  have he := List.prefix_of_prefix_length_le h h' (by decide)
  revert he
  decide

theorem receive_notification {dev : SmsWork} (h : Ready dev) (mm : MemoryName) (idx : LineText) :
    receiveAll dev (line (notificationText mm.text idx.text)) = rest ∧
      receiveCalls dev (line (notificationText mm.text idx.text)) =
        [.write ("AT+CMGR=".toList ++ idx.text ++ "\r\r".toList)] := by
  obtain ⟨head, hlen, hhead, hpre, htext⟩ := notificationText_eq mm idx.text
  have hcr : '\r' ∉ head ++ idx.text := by
    rw [List.mem_append, not_or]
    exact ⟨hhead, idx.noCr⟩
  have hcmti : "+CMTI".toList <+: head ++ idx.text := hpre.trans (List.prefix_append ..)
  rw [htext]
  obtain ⟨hrun, hcalls⟩ := receive_whole_line h hcr (not_cmgr_of_cmti hcmti)
  refine ⟨hrun, ?_⟩
  rw [hcalls, lineCalls, if_pos hcmti, lineCommand_append hlen idx.noNul]
  rfl

theorem lineCalls_plain (ismess : Bool) (text : PlainText) :
    lineCalls ismess text.text =
      if ismess then [.pt2Func text.text, .write "AT+CMGD=1\r".toList] else [] := by
  rw [lineCalls, if_neg text.notCmti, List.nil_append]

/-- **One unit.** -/
theorem receive_unit {dev : SmsWork} (h : Ready dev) (u : ModemUnit) :
    receiveAll dev u.bytes = rest ∧ receiveCalls dev u.bytes = u.answer := by
  cases u with
  | notification mm idx => exact receive_notification h mm idx
  | reply hdr body =>
    obtain ⟨hrun, hcalls⟩ := receive_reply h hdr.noCr body.noCr body.noNul
    refine ⟨hrun, ?_⟩
    rw [ModemUnit.bytes, hcalls, lineCalls_plain, decide_eq_false body.notCmgr]
    rfl
  | other text =>
    obtain ⟨hrun, hcalls⟩ := receive_whole_line h text.noCr text.notCmgr
    refine ⟨hrun, ?_⟩
    rw [ModemUnit.bytes, hcalls, lineCalls_plain]
    rfl

/-- **A stream of units**, by induction on the units: each one starts where the
one before it left the driver. -/
theorem receive_units {dev : SmsWork} (h : Ready dev) (us : List ModemUnit) :
    receiveAll dev (us.flatMap ModemUnit.bytes) = (if us = [] then dev else rest) ∧
      receiveCalls dev (us.flatMap ModemUnit.bytes) = us.flatMap ModemUnit.answer := by
  induction us generalizing dev with
  | nil => exact ⟨rfl, rfl⟩
  | cons u us ih =>
    obtain ⟨hrun, hcalls⟩ := receive_unit h u
    obtain ⟨hrun', hcalls'⟩ := ih ready_rest
    rw [List.flatMap_cons, List.flatMap_cons, receiveAll_append, receiveCalls_append, hrun, hcalls,
      hrun', hcalls']
    refine ⟨?_, rfl⟩
    rw [if_neg (List.cons_ne_nil u us)]
    split_ifs <;> rfl

/-- **The stream is decoded without loss, duplication or reordering**, one byte
per call of `Work`, with any number of idle calls in between and any bytes
passed through from the serial port. -/
theorem work_units {dev : SmsWork} (h : Ready dev) (us : List ModemUnit)
    (waiting : List (Option Char × Option Char))
    (hbytes : waiting.filterMap Prod.fst = us.flatMap ModemUnit.bytes) :
    (workCalls dev waiting).filterMap ownCall = us.flatMap ModemUnit.answer ∧
      workAll dev waiting = if us = [] then dev else rest := by
  obtain ⟨hrun, hcalls⟩ := work_receive dev waiting
  obtain ⟨hrun', hcalls'⟩ := receive_units h us
  rw [hrun, hcalls, hbytes, hrun', hcalls']
  exact ⟨rfl, rfl⟩

/-- The memory of the SIM card. -/
def simMemory : MemoryName := ⟨⟨"SM".toList, by decide, by decide⟩, by decide⟩

/-- A message comes in slot `3`, is asked for and arrives. -/
def messageArrives : List ModemUnit :=
  [.notification simMemory ⟨"3".toList, by decide, by decide⟩,
    .reply ⟨"\"REC UNREAD\"".toList, by decide, by decide⟩
      ⟨⟨"0 09:30\n".toList, by decide, by decide⟩, by decide, by decide⟩]

/-- No byte waits at the first call of `Work`, and one each at the following. -/
theorem work_units_messageArrives :
    (workCalls {} ((none, none) ::
        (messageArrives.flatMap ModemUnit.bytes).map (fun c => (some c, none)))).filterMap ownCall =
      messageArrives.flatMap ModemUnit.answer ∧
    workAll {} ((none, none) ::
        (messageArrives.flatMap ModemUnit.bytes).map (fun c => (some c, none))) =
      if messageArrives = [] then {} else rest :=
  work_units ⟨rfl, Or.inl rfl⟩ messageArrives _ (by decide)

end Polivunator.SmsWork
