import Mathlib.Data.List.TakeWhile

/-!
# The Arduino `String`

The functions of the `String` class that the sketch calls, on the list of the
string's characters.  Allocation is taken to succeed, so lengths are unbounded;
only the one place where a length is subtracted from, `lengthSub`, sees that
`unsigned int` has sixteen bits.

`substring` keeps three habits of the original: the two ends are swapped when
they are the wrong way round, an end past the string stops at the string, and
the result is copied as a C string, so it ends before the first NUL.
-/

namespace Polivunator

/-- An Arduino `String`. -/
abbrev WString := List Char

namespace WString

/-- The character that ends a C string. -/
def nul : Char := Char.ofNat 0

/-- What is left of a character array read as a C string (`c_str`). -/
def cStr (s : WString) : WString := s.takeWhile (fun c => decide (c ≠ nul))

/-- `s.substring(left, right)`. -/
def substring (s : WString) (left right : Nat) : WString :=
  if left > right then cStr ((s.take left).drop right) else cStr ((s.take right).drop left)

/-- `s.substring(left)`. -/
def substringFrom (s : WString) (left : Nat) : WString := substring s left s.length

/-- `s.length() - n` on a sixteen bit `unsigned int`. -/
def lengthSub (s : WString) (n : Nat) : Nat :=
  if n ≤ s.length then s.length - n else UInt16.size + s.length - n

/-- `String(n)` for an `int` that is not negative. -/
def ofNat (n : Nat) : WString := Nat.toDigits 10 n

/-- The text `print` writes for an `int`. -/
def ofInt : Int → WString
  | .ofNat n => ofNat n
  | .negSucc n => '-' :: ofNat (n + 1)

/-- The value of the leading decimal digits. -/
def digits (s : WString) : Nat :=
  (s.takeWhile Char.isDigit).foldl (fun n c => 10 * n + (c.toNat - '0'.toNat)) 0

/-- `s.toInt()`, which is `atol` on the characters: leading blanks, a sign, and
as many digits as there are. -/
def toInt (s : WString) : Int :=
  match (cStr s).dropWhile Char.isWhitespace with
  | '-' :: t => - (digits t : Int)
  | '+' :: t => digits t
  | t => digits t

/-! ### C strings -/

theorem cStr_eq_self {s : WString} (h : nul ∉ s) : cStr s = s := by
  rw [cStr, List.takeWhile_eq_self_iff]
  intro c hc
  exact decide_eq_true (fun he => h (he ▸ hc))

theorem cStr_append_nul {s : WString} (h : nul ∉ s) : cStr (s ++ [nul]) = s := by
  have hall : ∀ c ∈ s, decide (c ≠ nul) = true := by
    intro c hc
    exact decide_eq_true (fun he => h (he ▸ hc))
  rw [cStr, List.takeWhile_append_of_pos hall, List.takeWhile_cons_of_neg (by decide),
    List.append_nil]

theorem nul_notMem_cStr (s : WString) : nul ∉ cStr s := by
  intro h
  have hne : decide (nul ≠ nul) = true :=
    List.mem_takeWhile_imp (p := fun c => decide (c ≠ nul)) h
  exact of_decide_eq_true hne rfl

theorem nul_notMem_substring (s : WString) (left right : Nat) : nul ∉ substring s left right := by
  unfold substring
  split
  · exact nul_notMem_cStr _
  · exact nul_notMem_cStr _

theorem substring_of_le {s : WString} {left right : Nat} (h : left ≤ right) :
    substring s left right = cStr ((s.take right).drop left) := by
  rw [substring, if_neg (Nat.not_lt.mpr h)]

/-- Reading on past the end is reading to the end. -/
theorem substringFrom_eq (s : WString) (left : Nat) : substringFrom s left = cStr (s.drop left) := by
  rw [substringFrom]
  by_cases h : left ≤ s.length
  · rw [substring_of_le h, List.take_length]
  · rw [substring, if_pos (by omega), List.drop_eq_nil_of_le (by rw [List.length_take]; omega),
      List.drop_eq_nil_of_le (by omega)]

/-! ### Digits -/

theorem ofNat_digit {d : Nat} (h : d < 10) : ofNat d = [Nat.digitChar d] :=
  Nat.toDigits_of_lt_base h

theorem digitChar_mem {d : Nat} (h : d < 10) : Nat.digitChar d ∈ "0123456789".toList := by
  have hall : ∀ d : Fin 10, Nat.digitChar d ∈ "0123456789".toList := by decide
  exact hall ⟨d, h⟩

theorem digitChar_ne {c : Char} (hc : c ∉ "0123456789".toList) {d : Nat} (h : d < 10) :
    Nat.digitChar d ≠ c := fun he => hc (he ▸ digitChar_mem h)

theorem digitChar_ne_nul {d : Nat} (h : d < 10) : Nat.digitChar d ≠ nul :=
  digitChar_ne (by decide) h

theorem toInt_two {a b : Nat} (ha : a < 10) (hb : b < 10) :
    toInt [Nat.digitChar a, Nat.digitChar b] = (10 * a + b : Nat) := by
  have hall : ∀ a b : Fin 10, toInt [Nat.digitChar a, Nat.digitChar b] = (10 * a + b : Nat) := by
    decide
  exact hall ⟨a, ha⟩ ⟨b, hb⟩

/-- Reading a number stops at a colon. -/
theorem toInt_colon {a : Nat} (ha : a < 10) : toInt [Nat.digitChar a, ':'] = a := by
  have hall : ∀ a : Fin 10, toInt [Nat.digitChar a, ':'] = (a : Nat) := by decide
  exact hall ⟨a, ha⟩

end WString

end Polivunator
