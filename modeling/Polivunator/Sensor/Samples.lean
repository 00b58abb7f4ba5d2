import Mathlib.Data.List.Pairwise
import Polivunator.Library.Labelled
import Polivunator.Sensor.Frame

/-!
# When the sensor is asked

`DHT::read` asks the sensor only if two seconds have passed since it last did, or
if it is forced to, and otherwise repeats its answer.  The sketch calls it every
second, once for the humidity and once for the temperature, and never forces it.

In every run of calls an answer is the verdict on the frame that was sampled
last (`answers_last`), and a sample that is not forced is two seconds or more
after all before it, although `millis()` wraps (`samples_apart`).  `damaged_byte_iff` is an answer that the
sensor has sent and the wire may have damaged.
-/

namespace Polivunator.Sensor

open Labelled

def MIN_INTERVAL : UInt32 := 2000

/-- `begin(usec)`, of a global object. -/
def Dht.begin (millis : UInt32) : Dht where
  data _ := 0
  lastreadtime := millis - MIN_INTERVAL
  lastresult := false

/-- `read(force)`, with what `millis()` answers and what the sensor would send. -/
def read (force : Bool) (currenttime : UInt32) (line : Line) (d : Dht) : Dht × Bool :=
  if !force ∧ currenttime - d.lastreadtime < MIN_INTERVAL then (d, d.lastresult)
  else sample line { d with lastreadtime := currenttime }

/-- A call of `readHumidity()` or `readTemperature()`: how many milliseconds after the
start, what the sensor would send, and whether it is forced. -/
structure Call where
  millis : Nat
  line : Line
  force : Bool

def Call.time (c : Call) : UInt32 := UInt32.ofNat c.millis

/-- Whether the sensor is asked. -/
def Asks (d : Dht) (c : Call) : Prop :=
  c.force = true ∨ MIN_INTERVAL ≤ c.time - d.lastreadtime

instance (d : Dht) (c : Call) : Decidable (Asks d c) :=
  inferInstanceAs (Decidable (c.force = true ∨ MIN_INTERVAL ≤ c.time - d.lastreadtime))

def step (d : Dht) (c : Call) : Dht := (read c.force c.time c.line d).1

/-- The calls that ask the sensor. -/
def samples (d : Dht) (c : Call) : List Call := if Asks d c then [c] else []

theorem read_of_asks {d : Dht} {c : Call} (h : Asks d c) :
    read c.force c.time c.line d = sample c.line { d with lastreadtime := c.time } := by
  have hnot : ¬ ((!c.force) = true ∧ c.time - d.lastreadtime < MIN_INTERVAL) := by
    rintro ⟨hfree, hearly⟩
    rcases h with hforce | hlate
    · rw [hforce] at hfree
      exact absurd hfree (by decide)
    · exact absurd hearly (UInt32.not_lt.mpr hlate)
  rw [read, if_neg hnot]

theorem read_of_not_asks {d : Dht} {c : Call} (h : ¬ Asks d c) :
    read c.force c.time c.line d = (d, d.lastresult) := by
  obtain ⟨hfree, hearly⟩ := not_or.mp h
  rw [Bool.not_eq_true] at hfree
  rw [read, hfree, if_pos ⟨rfl, UInt32.not_le.mp hearly⟩]

/-! ### What is remembered -/

/-- The object after a sample, if there was one. -/
def Remembers (d : Dht) : Option Call → Prop
  | none => d.lastresult = false
  | some c => d.lastreadtime = c.time ∧ d.lastresult = verdict c.line ∧
      (verdict c.line = true → ∀ j < 5, d.data j = byteAt c.line j)

theorem step_remembers {d : Dht} {q : Option Call} (h : Remembers d q) (c : Call) :
    Remembers (step d c) (if Asks d c then some c else q) := by
  split_ifs with hasks
  · obtain ⟨-, hresult, htime, hdata⟩ := sample_verdict c.line { d with lastreadtime := c.time }
    rw [step, read_of_asks hasks]
    exact ⟨htime, hresult, hdata⟩
  · rw [step, read_of_not_asks hasks]
    exact h

/-- **A run remembers its last sample.** -/
theorem run_remembers (t : UInt32) (cs : List Call) :
    Remembers (run step (.begin t) cs) (history step samples (.begin t) cs).getLast? := by
  induction cs using List.reverseRecOn with
  | nil => exact rfl
  | append_singleton cs c ih =>
    have hstep := step_remembers ih c
    rw [run_snoc, history_snoc, samples]
    split_ifs at hstep ⊢ with hasks
    · rw [List.getLast?_concat]
      exact hstep
    · rw [List.append_nil]
      exact hstep

/-- **Answers.**  In every run, at whatever times: an answer is the verdict on the
frame sampled last, which was less than two seconds ago, and if it is yes then the
five bytes are those of that frame. -/
theorem answers_last (t : UInt32) (cs : List Call) (c : Call) :
    (read c.force c.time c.line (run step (.begin t) cs)).2 =
        ((history step samples (.begin t) (cs ++ [c])).getLast?.map
          fun q => verdict q.line).getD false ∧
      ∀ q ∈ (history step samples (.begin t) (cs ++ [c])).getLast?,
        c.time - q.time < MIN_INTERVAL ∧
          (verdict q.line = true → Balanced (run step (.begin t) (cs ++ [c])).data ∧
            ∀ j < 5, (run step (.begin t) (cs ++ [c])).data j = byteAt q.line j) := by
  have hbefore := run_remembers t cs
  have hafter := run_remembers t (cs ++ [c])
  have hlast : (history step samples (.begin t) (cs ++ [c])).getLast? =
      if Asks (run step (.begin t) cs) c then some c
      else (history step samples (.begin t) cs).getLast? := by
    rw [history_snoc, samples]
    split_ifs
    · exact List.getLast?_concat
    · rw [List.append_nil]
  constructor
  · rw [hlast]
    split_ifs with hasks
    · rw [read_of_asks hasks, (sample_verdict _ _).1]
      rfl
    · rw [read_of_not_asks hasks]
      cases hq : (history step samples (.begin t) cs).getLast? with
      | none =>
        rw [hq] at hbefore
        exact hbefore
      | some q =>
        rw [hq] at hbefore
        exact hbefore.2.1
  · intro q hq
    rw [Option.mem_def] at hq
    rw [hq] at hafter
    refine ⟨?_, fun hverdict => ⟨?_, hafter.2.2 hverdict⟩⟩
    · rw [hlast] at hq
      split_ifs at hq with hasks
      · rw [Option.some.inj hq, UInt32.sub_self]
        decide
      · rw [hq] at hbefore
        rw [← hbefore.1]
        exact UInt32.not_le.mp (not_or.mp hasks).2
    · have hbytes := hafter.2.2 hverdict
      have hbalanced : Balanced (byteAt q.line) := (of_decide_eq_true hverdict).2
      rw [Balanced, hbytes 4 (by decide), hbytes 0 (by decide), hbytes 1 (by decide),
        hbytes 2 (by decide), hbytes 3 (by decide)]
      exact hbalanced

/-! ### Two seconds -/

/-- Two seconds on the clock that wraps are two seconds. -/
theorem le_of_asks {d : Dht} {q c : Call} (hlast : d.lastreadtime = q.time)
    (horder : q.millis ≤ c.millis) (hfree : c.force = false) (h : Asks d c) :
    q.millis + 2000 ≤ c.millis := by
  rcases h with hforce | h
  · rw [hfree] at hforce
    cases hforce
  · rw [hlast, Call.time, Call.time, UInt32.le_iff_toNat_le, UInt32.toNat_sub,
      UInt32.toNat_ofNat', UInt32.toNat_ofNat'] at h
    have hinterval : MIN_INTERVAL.toNat = 2000 := rfl
    rw [hinterval] at h
    omega

/-- The samples are some of the calls. -/
theorem samples_sublist (d : Dht) (cs : List Call) :
    (history step samples d cs).Sublist cs := by
  induction cs generalizing d with
  | nil => exact List.Sublist.slnil
  | cons c cs ih =>
    rw [history_cons, samples]
    split_ifs
    · exact (ih _).cons_cons c
    · exact (ih _).cons c

/-- **The sensor is never asked twice within two seconds** unless it is forced to, in
any run. -/
theorem samples_apart (t : UInt32) {cs : List Call}
    (horder : cs.Pairwise fun a b => a.millis ≤ b.millis) :
    (history step samples (.begin t) cs).Pairwise fun a b =>
      b.force = false → a.millis + 2000 ≤ b.millis := by
  induction cs using List.reverseRecOn with
  | nil => exact List.Pairwise.nil
  | append_singleton cs c ih =>
    rw [List.pairwise_append] at horder
    obtain ⟨hcs, -, hlater⟩ := horder
    have hapart := ih hcs
    rw [history_snoc, samples]
    split_ifs with hasks
    · refine List.pairwise_append.mpr ⟨hapart, List.pairwise_singleton _ _, ?_⟩
      intro a ha b hb hfree
      rw [List.mem_singleton.mp hb] at hfree ⊢
      -- the last sample is far enough away, and the others are before it
      obtain ⟨qs, q, hqs⟩ := (List.eq_nil_or_concat' _).resolve_left (List.ne_nil_of_mem ha)
      have hremembers := run_remembers t cs
      have hsublist := samples_sublist (.begin t) cs
      rw [hqs, List.getLast?_concat] at hremembers
      rw [hqs] at ha hsublist
      have hle : q.millis ≤ c.millis :=
        hlater q (hsublist.subset (List.mem_append_right _ (List.mem_singleton_self q))) c
          (List.mem_singleton_self c)
      have hfar := le_of_asks hremembers.1 hle hfree hasks
      have hsorted := List.pairwise_append.mp (hcs.sublist hsublist)
      rcases List.mem_append.mp ha with ha | ha
      · have hbefore := hsorted.2.2 a ha q (List.mem_singleton_self q)
        omega
      · rw [List.mem_singleton.mp ha]
        exact hfar
    · rw [List.append_nil]
      exact hapart

/-- A call every second. -/
theorem samples_apart_three :
    (history step samples (.begin 5)
        [⟨5, fun _ => 50, false⟩, ⟨1005, fun _ => 50, false⟩, ⟨2005, fun _ => 50, false⟩]).Pairwise
      fun a b => b.force = false → a.millis + 2000 ≤ b.millis :=
  samples_apart 5 (by simp)

/-! ### Damaged frames -/

/-- **A frame of which one byte may be damaged.**  Whatever happens to its bits on the
way: when the sensor is asked, the answer is yes if and only if none of them is wrong. -/
theorem damaged_byte_iff {d : Dht} {c : Call} (hasks : Asks d c) {frame : Nat → BitVec 8}
    (hframe : Balanced frame) (htime : InTime c.line) {k : Nat} (hk : k < 5)
    (hothers : ∀ i < 40, i / 8 ≠ k → bitAt c.line i = frameBit frame i) :
    ((read c.force c.time c.line d).2 = true ↔ ∀ i < 40, bitAt c.line i = frameBit frame i) ∧
      ((read c.force c.time c.line d).2 = true →
        ∀ j < 5, (read c.force c.time c.line d).1.data j = frame j) := by
  have hbytes : ∀ j < 5, byteAt c.line j = frame j ↔
      ∀ i < 40, i / 8 = j → bitAt c.line i = frameBit frame i := fun j hj => byteAt_eq_iff hj
  have hright : ∀ j < 5, j ≠ k → byteAt c.line j = frame j := by
    intro j hj hjk
    exact (hbytes j hj).mpr (fun i hi hij => hothers i hi (by omega))
  have hbalanced : Balanced (byteAt c.line) ↔ byteAt c.line k = frame k :=
    balanced_iff_of_one hframe hk hright
  have hverdict : verdict c.line = true ↔ byteAt c.line k = frame k := by
    rw [verdict, decide_eq_true_eq, hbalanced]
    exact and_iff_right htime
  obtain ⟨hanswer, -, -, hdata⟩ := sample_verdict c.line { d with lastreadtime := c.time }
  rw [read_of_asks hasks, hanswer]
  refine ⟨?_, ?_⟩
  · rw [hverdict, hbytes k hk]
    constructor
    · intro hown i hi
      by_cases hik : i / 8 = k
      · exact hown i hi hik
      · exact hothers i hi hik
    · exact fun hall i hi _ => hall i hi
  · intro htrue j hj
    rw [hdata htrue j hj]
    by_cases hjk : j = k
    · rw [hjk]
      exact hverdict.mp htrue
    · exact hright j hj hjk

/-- Forty percent and 25 degrees. -/
def reading : Nat → BitVec 8
  | 0 => 40
  | 2 => 25
  | 4 => 65
  | _ => 0

/-- The pulses of a frame. -/
def pulses (frame : Nat → BitVec 8) : Line := fun i =>
  if i < 2 then 80 else if i % 2 = 0 then 50 else if frameBit frame (i / 2 - 1) then 70 else 28

theorem damaged_byte_iff_reading :
    (read false 5 (pulses reading) (.begin 5)).2 = true ∧
      (read false 5 (pulses reading) (.begin 5)).1.data 2 = 25#8 := by
  have hread := damaged_byte_iff (d := .begin 5) (c := ⟨5, pulses reading, false⟩) (by decide)
    (show Balanced reading by decide) (by decide) (show 2 < 5 by decide) (by decide)
  have htrue := hread.1.mpr (by decide)
  exact ⟨htrue, hread.2 htrue 2 (by decide)⟩

end Polivunator.Sensor
