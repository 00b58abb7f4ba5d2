import Polivunator.Sketch.State
import Mathlib.Data.List.TakeDrop

/-!
# Typing a time digit by digit

A `Time` is a 24-hour time and carries the proofs that its hour and minute are
in range.  Digits that are typed are *completable* when they start some time;
`completable_one` to `completable_four` say which do.

An `Entry` is what has been typed since the page was opened: the bed, all the
digits taken so far, and the proof that the first four start a time.  `press`
is the keypad's own rule for the next digit, `Accepts`.  While the first time is
typed the rule is the right one (`accepts_iff_completable`), and after that it
no longer looks at the hour.
-/

namespace Polivunator

open WString

/-! ### Times -/

structure Time where
  hour : Nat
  minute : Nat
  hour_lt : hour < 24
  minute_lt : minute < 60

namespace Time

/-- The four digits of a time. -/
def digits (t : Time) : List Nat := [t.hour / 10, t.hour % 10, t.minute / 10, t.minute % 10]

/-- `HH:MM`. -/
def text (t : Time) : WString :=
  ofNat (t.hour / 10) ++ ofNat (t.hour % 10) ++ ':' :: ofNat (t.minute / 10) ++
    ofNat (t.minute % 10)

theorem length_text (t : Time) : t.text.length = 5 := by
  have hh := t.hour_lt
  have hm := t.minute_lt
  rw [text, ofNat_digit (by omega), ofNat_digit (by omega), ofNat_digit (by omega),
    ofNat_digit (by omega)]
  rfl

end Time

namespace Keypad

/-! ### Digits that start a time -/

/-- The digits can be completed to a time. -/
def Completable (ds : List Nat) : Prop := ∃ t : Time, ds <+: t.digits

theorem Completable.of_append {ds : List Nat} (es : List Nat) (h : Completable (ds ++ es)) :
    Completable ds := by
  obtain ⟨t, ht⟩ := h
  exact ⟨t, (List.prefix_append ds es).trans ht⟩

theorem Completable.length_le {ds : List Nat} (h : Completable ds) : ds.length ≤ 4 := by
  obtain ⟨t, ht⟩ := h
  exact ht.length_le

/-- The last of the four digits makes a time. -/
theorem Completable.eq_digits {ds : List Nat} (h : Completable ds) (hlen : ds.length = 4) :
    ∃ t : Time, ds = t.digits := by
  obtain ⟨t, ht⟩ := h
  exact ⟨t, ht.eq_of_length hlen⟩

/-- The digits of a time, from their places. -/
theorem completable_four {a b c d : Nat} :
    Completable [a, b, c, d] ↔ 10 * a + b < 24 ∧ b < 10 ∧ c ≤ 5 ∧ d < 10 := by
  constructor
  · rintro ⟨⟨h, m, hh, hm⟩, ht⟩
    have he := ht.eq_of_length rfl
    simp only [Time.digits, List.cons.injEq, and_true] at he
    obtain ⟨rfl, rfl, rfl, rfl⟩ := he
    omega
  · rintro ⟨hab, hb, hc, hd⟩
    refine ⟨⟨10 * a + b, 10 * c + d, hab, by omega⟩, ?_⟩
    have ha : (10 * a + b) / 10 = a := by omega
    have hb' : (10 * a + b) % 10 = b := by omega
    have hc' : (10 * c + d) / 10 = c := by omega
    have hd' : (10 * c + d) % 10 = d := by omega
    simp only [Time.digits, ha, hb', hc', hd']
    exact List.prefix_refl _

theorem completable_nil : Completable [] := ⟨⟨0, 0, by omega, by omega⟩, List.nil_prefix⟩

theorem completable_three {a b c : Nat} :
    Completable [a, b, c] ↔ 10 * a + b < 24 ∧ b < 10 ∧ c ≤ 5 := by
  constructor
  · rintro ⟨⟨h, m, hh, hm⟩, ⟨t, ht⟩⟩
    simp only [Time.digits, List.cons_append, List.cons.injEq] at ht
    obtain ⟨rfl, rfl, rfl, -⟩ := ht
    omega
  · rintro ⟨hab, hb, hc⟩
    exact Completable.of_append [0] (completable_four.mpr ⟨hab, hb, hc, by omega⟩)

theorem completable_two {a b : Nat} : Completable [a, b] ↔ 10 * a + b < 24 ∧ b < 10 := by
  constructor
  · rintro ⟨⟨h, m, hh, hm⟩, ⟨t, ht⟩⟩
    simp only [Time.digits, List.cons_append, List.cons.injEq] at ht
    obtain ⟨rfl, rfl, -⟩ := ht
    omega
  · rintro ⟨hab, hb⟩
    exact Completable.of_append [0] (completable_three.mpr ⟨hab, hb, by omega⟩)

theorem completable_one {a : Nat} : Completable [a] ↔ a ≤ 2 := by
  constructor
  · rintro ⟨⟨h, m, hh, hm⟩, ⟨t, ht⟩⟩
    simp only [Time.digits, List.cons_append, List.cons.injEq] at ht
    obtain ⟨rfl, -⟩ := ht
    omega
  · intro ha
    exact Completable.of_append [0] (completable_two.mpr ⟨by omega, by omega⟩)

/-! ### The text of typed digits -/

/-- The text of digits of which the first is the `i`-th typed: a colon comes
before the third of every four. -/
def typedFrom : Nat → List Nat → WString
  | _, [] => []
  | i, d :: ds => (if i % 4 = 2 then ':' :: ofNat d else ofNat d) ++ typedFrom (i + 1) ds

/-- The text of all digits typed since the page was opened. -/
def typed (ds : List Nat) : WString := typedFrom 0 ds

theorem typedFrom_append (i : Nat) (ds es : List Nat) :
    typedFrom i (ds ++ es) = typedFrom i ds ++ typedFrom (i + ds.length) es := by
  induction ds generalizing i with
  | nil => rfl
  | cons d ds ih =>
    rw [List.cons_append, typedFrom, typedFrom, ih, List.append_assoc, List.length_cons,
      Nat.add_assoc, Nat.add_comm 1]

theorem typed_snoc (ds : List Nat) (d : Nat) :
    typed (ds ++ [d]) = typed ds ++ if ds.length % 4 = 2 then ':' :: ofNat d else ofNat d := by
  rw [typed, typedFrom_append, ← typed, Nat.zero_add, typedFrom, typedFrom, List.append_nil]

/-- **Four digits of a time are its text.** -/
theorem typed_digits (t : Time) : typed t.digits = t.text := by
  simp [typed, typedFrom, Time.digits, Time.text]

/-! ### The keypad's rule -/

/-- Whether the keypad takes a digit after the digits `ds`.  The second digit
is compared with the hour of the first time only. -/
def Accepts (ds : List Nat) (d : Nat) : Prop :=
  d < 10 ∧
    if ds.length % 4 = 0 then d ≤ 2
    else if ds.length % 4 = 2 then d ≤ 5
    else ds.length = 1 → 10 * ds.headD 0 + d < 24

instance (ds : List Nat) (d : Nat) : Decidable (Accepts ds d) := by
  unfold Accepts
  infer_instance

/-- **While the first time is typed, the rule is the right one.** -/
theorem accepts_iff_completable {ds : List Nat} (hlen : ds.length < 4) (h : Completable ds) (d : Nat) :
    Accepts ds d ↔ Completable (ds ++ [d]) := by
  match ds, hlen with
  | [], _ =>
    have hrule : Accepts [] d ↔ d < 10 ∧ d ≤ 2 := by simp [Accepts]
    show _ ↔ Completable [d]
    rw [completable_one, hrule]
    omega
  | [a], _ =>
    have hrule : Accepts [a] d ↔ d < 10 ∧ 10 * a + d < 24 := by simp [Accepts]
    show _ ↔ Completable [a, d]
    rw [completable_two, hrule]
    omega
  | [a, b], _ =>
    have hrule : Accepts [a, b] d ↔ d < 10 ∧ d ≤ 5 := by simp [Accepts]
    show _ ↔ Completable [a, b, d]
    rw [completable_two] at h
    rw [completable_three, hrule]
    omega
  | [a, b, c], _ =>
    have hrule : Accepts [a, b, c] d ↔ d < 10 := by simp [Accepts]
    show _ ↔ Completable [a, b, c, d]
    rw [completable_three] at h
    rw [completable_four, hrule]
    omega

/-! ### Entries -/

/-- What has been typed for a bed since its page was opened. -/
structure Entry where
  bed : Bed
  digits : List Nat
  lt_ten : ∀ d ∈ digits, d < 10
  first : Completable (digits.take 4)

namespace Entry

/-- A page that has just been opened. -/
def opened (k : Bed) : Entry := ⟨k, [], fun d hd => by simp at hd, completable_nil⟩

theorem first_press {t : Entry} {d : Nat} (h : Accepts t.digits d) :
    Completable ((t.digits ++ [d]).take 4) := by
  by_cases hlen : t.digits.length < 4
  · have hfirst := t.first
    rw [List.take_of_length_le (by omega)] at hfirst
    rw [List.take_of_length_le (by rw [List.length_append, List.length_singleton]; omega)]
    exact (accepts_iff_completable hlen hfirst d).mp h
  · rw [List.take_append_of_le_length (by omega)]
    exact t.first

/-- Press a digit. -/
def press (t : Entry) (d : Nat) : Entry :=
  if h : Accepts t.digits d then
    { bed := t.bed
      digits := t.digits ++ [d]
      lt_ten := by
        intro x hx
        rcases List.mem_append.mp hx with hx | hx
        · exact t.lt_ten x hx
        · rw [List.mem_singleton.mp hx]
          exact h.1
      first := first_press h }
  else t

theorem press_digits (t : Entry) (d : Nat) :
    (t.press d).digits = if Accepts t.digits d then t.digits ++ [d] else t.digits := by
  by_cases h : Accepts t.digits d
  · rw [press, dif_pos h, if_pos h]
  · rw [press, dif_neg h, if_neg h]

@[simp] theorem press_bed (t : Entry) (d : Nat) : (t.press d).bed = t.bed := by
  by_cases h : Accepts t.digits d
  · rw [press, dif_pos h]
  · rw [press, dif_neg h]

theorem foldl_press_bed (t : Entry) (ds : List Nat) : (ds.foldl press t).bed = t.bed := by
  induction ds generalizing t with
  | nil => rfl
  | cons d ds ih => rw [List.foldl_cons, ih, press_bed]

end Entry

end Keypad

end Polivunator
