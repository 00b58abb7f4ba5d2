import Mathlib.Logic.Function.Basic

/-!
# The infrared receiver

The part of the receiver that runs behind the sketch's back.  Every 50 µs a
timer interrupt looks at the pin: a mark is light and a space is none.  It counts
how long the pin stays as it is and writes the counts to `rawbuf` until a space
is longer than any inside a transmission; then it stops and waits for `resume`.

`timer` has the sixteen bits of an `unsigned int`.  `rawbuf` is all memory from
its first entry on, since the program writes to it without a check of its own:
only the first `rawBufferLength` entries belong to it.
-/

namespace Polivunator.Remote

/-- What the pin reads. -/
inductive Irdata
  | mark
  | space
  deriving DecidableEq

/-- The other level. -/
def Irdata.other : Irdata → Irdata
  | .mark => .space
  | .space => .mark

@[simp] theorem Irdata.other_other (a : Irdata) : a.other.other = a := by cases a <;> rfl

/-- `IR_REC_STATE_IDLE` and the others. -/
inductive RcvState
  | idle
  | mark
  | space
  | stop
  deriving DecidableEq

/-- `RAW_BUFFER_LENGTH`. -/
def rawBufferLength : Nat := 101

/-- `GAP_TICKS`. -/
def gapTicks : UInt16 := 5000 / 50

/-- `irparams_struct`, as far as reception goes. -/
structure Irparams where
  rcvstate : RcvState
  rawlen : Nat
  timer : UInt16
  rawbuf : Nat → UInt16
  overflow : Bool

namespace Irparams

/-- The global `irparams` after `enableIRIn()`. -/
def enableIRIn : Irparams := ⟨.idle, 0, 0, fun _ => 0, false⟩

/-- `rawbuf[rawlen++] = timer; timer = 0; rcvstate = next`. -/
def record (next : RcvState) (p : Irparams) : Irparams :=
  { p with
    rawbuf := Function.update p.rawbuf p.rawlen p.timer
    rawlen := p.rawlen + 1
    timer := 0
    rcvstate := next }

/-- The interrupt, one more tick into its state. -/
def advance (irdata : Irdata) (p : Irparams) : Irparams :=
  match p.rcvstate with
  | .idle =>
      if irdata = .mark then
        if p.timer < gapTicks then { p with timer := 0 }
        else record .mark { p with overflow := false, rawlen := 0 }
      else p
  | .mark => if irdata = .space then record .space p else p
  | .space =>
      if irdata = .mark then record .mark p
      else if p.timer > gapTicks then { p with rcvstate := .stop }
      else p
  | .stop => if irdata = .mark then { p with timer := 0 } else p

/-- `ISR (TIMER_INTR_NAME)`. -/
def isr (p : Irparams) (irdata : Irdata) : Irparams :=
  let p := { p with timer := p.timer + 1 }
  let p := if p.rawlen ≥ rawBufferLength then { p with overflow := true, rcvstate := .stop } else p
  advance irdata p

/-- `resume()`. -/
def resume (p : Irparams) : Irparams := { p with rcvstate := .idle }

/-- The entries written so far. -/
def entries (p : Irparams) : List UInt16 := (List.range p.rawlen).map p.rawbuf

end Irparams

end Polivunator.Remote
