import Polivunator.Arduino.WString

/-!
# The modem driver

`SmsWork::Work()` takes at most one byte from the modem per call.  A carriage
return closes a frame: a `+CMTI` frame is answered with a request for the
message it names, a frame after a `+CMGR` frame is the text of a message and is
handed to `pt2Func`, and a deletion is requested.  After that one byte typed on
the serial port is passed through to the modem.

`pt2Func` is a parameter of the class, so a call of `Work` returns what it did
to the outside, in order, and the sketch applies its own `receivesms`.
-/

namespace Polivunator

open WString

/-- What `Work` does to the outside. -/
inductive SimCall
  /-- `mySerial->write(text)`. -/
  | write (text : WString)
  /-- `pt2Func(text)`. -/
  | pt2Func (text : WString)
  /-- `mySerial->write(Serial.read())`. -/
  | pass (c : Char)
  deriving DecidableEq

/-- The bytes a call sends to the modem. -/
def SimCall.bytes : SimCall → WString
  | .write text => text
  | .pt2Func _ => []
  | .pass c => [c]

/-- The fields of `SmsWork` that change. -/
structure SmsWork where
  bufferSIM : WString := []
  ismess : Bool := false
  deriving DecidableEq

namespace SmsWork

/-- `bufferSIM.substring(1, 6) == "+CMTI"`. -/
def isCmti (buffer : WString) : Bool := decide (substring buffer 1 6 = "+CMTI".toList)

/-- `bufferSIM.substring(1, 6) == "+CMGR"`. -/
def isCmgr (buffer : WString) : Bool := decide (substring buffer 1 6 = "+CMGR".toList)

/-- The command written for a `+CMTI` frame. -/
def cmgrCommand (buffer : WString) : WString :=
  "AT+CMGR=".toList ++ substringFrom buffer 13 ++ "\r".toList

/-- The text handed to `pt2Func`. -/
def messageText (buffer : WString) : WString :=
  substring (substringFrom buffer 1) 0 (lengthSub buffer 2)

/-- What is done with a complete frame: the three `if`s, in order. -/
def frameCalls (ismess : Bool) (buffer : WString) : List SimCall :=
  (if isCmti buffer then [.write (cStr (cmgrCommand buffer))] else []) ++
    (if ismess then [.pt2Func (messageText buffer), .write "AT+CMGD=1\r".toList] else [])

/-- `ismess` after a complete frame. -/
def frameIsmess (ismess : Bool) (buffer : WString) : Bool :=
  let ismess := if ismess then false else ismess
  if isCmgr buffer then true else ismess

/-- One byte from the modem. -/
def receive (dev : SmsWork) (readSIM : Char) : SmsWork × List SimCall :=
  let buffer := dev.bufferSIM ++ [readSIM]
  if readSIM = '\r' then (⟨[], frameIsmess dev.ismess buffer⟩, frameCalls dev.ismess buffer)
  else (⟨buffer, dev.ismess⟩, [])

/-- `Work()`, given the bytes waiting on the two serial ports. -/
def work (dev : SmsWork) (sim usb : Option Char) : SmsWork × List SimCall :=
  let r := match sim with
    | none => (dev, [])
    | some readSIM => receive dev readSIM
  match usb with
  | none => r
  | some c => (r.1, r.2 ++ [.pass c])

theorem frameCalls_texts {ismess : Bool} {buffer text : WString}
    (h : .pt2Func text ∈ frameCalls ismess buffer) : nul ∉ text := by
  unfold frameCalls at h
  rcases List.mem_append.mp h with h | h
  · split at h <;> simp at h
  · split at h
    · have htext : text = messageText buffer := by simpa using h
      rw [htext]
      exact nul_notMem_substring _ _ _
    · simp at h

/-- A text that is handed on is a C string. -/
theorem work_texts {dev : SmsWork} {sim usb : Option Char} {text : WString}
    (h : .pt2Func text ∈ (dev.work sim usb).2) : nul ∉ text := by
  have hreceive : ∀ c, .pt2Func text ∈ (receive dev c).2 → nul ∉ text := by
    intro c hc
    unfold receive at hc
    split at hc
    · exact frameCalls_texts hc
    · simp at hc
  cases sim with
  | none => cases usb <;> simp [work] at h
  | some c =>
    refine hreceive c ?_
    cases usb with
    | none => exact h
    | some d => simpa [work] using h

end SmsWork

end Polivunator
