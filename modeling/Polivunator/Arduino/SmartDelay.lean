/-!
# `SmartDelay`

The timer the two periodic blocks of `loop` wait on.  Only what they use is
here: a timer is built with its period and asked `Now`, so its `state` is
`SMART_DELAY_START` for good and `Now` answers whether the period has passed.
The subtraction is the sketch's, on the 32 bits of `micros()`.
-/

namespace Polivunator

/-- `SMART_DELAY_STATE`. -/
inductive SmartDelayState
  | start
  | stop
  deriving DecidableEq

structure SmartDelay where
  smMicros : UInt32
  /-- A global object, so it starts at zero. -/
  smLast : UInt32 := 0
  state : SmartDelayState := .start

namespace SmartDelay

/-- `SmartDelay(tick)`. -/
def new (tick : UInt32) : SmartDelay := { smMicros := tick }

/-- `Now()`, given what `micros()` answers: the timer afterwards and the answer. -/
def now (d : SmartDelay) (mcs : UInt32) : SmartDelay × Bool :=
  if mcs - d.smLast < d.smMicros then (d, false)
  else ({ d with smLast := mcs }, decide (d.state = .start))

theorem now_of_false {d : SmartDelay} {mcs : UInt32} (hstart : d.state = .start)
    (h : (d.now mcs).2 = false) : (d.now mcs).1 = d ∧ mcs - d.smLast < d.smMicros := by
  unfold now at h ⊢
  split at h
  · rename_i hlt
    rw [if_pos hlt]
    exact ⟨rfl, hlt⟩
  · simp [hstart] at h

/-- **A timer asked twice, more than its period apart, answers at one of the
two**, whenever it last started and however often `micros()` has wrapped. -/
theorem now_of_gap {d : SmartDelay} {a b : Nat} (hstart : d.state = .start)
    (h : (d.now (UInt32.ofNat a)).2 = false) (hlo : a + d.smMicros.toNat ≤ b)
    (hhi : b + d.smMicros.toNat ≤ a + UInt32.size) : (d.now (UInt32.ofNat b)).2 = true := by
  cases hb : (d.now (UInt32.ofNat b)).2 with
  | true => rfl
  | false =>
    have hfirst := (now_of_false hstart h).2
    have hsecond := (now_of_false hstart hb).2
    rw [UInt32.lt_iff_toNat_lt, UInt32.toNat_sub, UInt32.toNat_ofNat'] at hfirst hsecond
    have hlast := d.smLast.toNat_lt
    rw [UInt32.size] at hhi
    omega

end SmartDelay

end Polivunator
