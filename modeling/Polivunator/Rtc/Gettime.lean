import Polivunator.Arduino.WString
import Polivunator.Rtc.Unix
import Mathlib.Data.List.GetD

/-!
# The time as a text

`gettime(i)` goes over the format twice: once to find how many bytes the text
takes, once to write it into a block of that size.  Every position it writes is
recorded here, so that `gettimeFill_eq` can say what is written and where: the
text and its end, one character after the other from the start of the block on.
`gettimeSize_eq` says that the block has room for just that.

The sizes and positions are bytes.  Both results hold as long as the text has
fewer than 255 characters.
-/

namespace Polivunator.Rtc

/-! ### The source -/

def charInput : List Char := ['w', 'a', 'A', 'd', 'h', 'H', 'i', 'm', 's', 'y', 'M', 'D', 'Y']

def charMidday : List Char := "ampmAMPM".toList

def charDayMon : List Char := "SunMonTueWedThuFriSatJanFebMarAprMayJunJulAugSepOctNovDec".toList

/-- What one service character adds to the size, by its place in `charInput`. -/
def gettimeExtra (k : Nat) (n : UInt8) : UInt8 :=
  let n := if k > 0 then n + 1 else n
  let n := if k > 9 then n + 1 else n
  if k > 11 then n + 1 else n

/-- The size of the block. -/
def gettimeSize (i : WString) : UInt8 :=
  i.foldl (fun n c => charInput.zipIdx.foldl (fun n b => if c = b.1 then gettimeExtra b.2 n else n) n)
    (UInt8.ofNat (i.length + 1))

/-- A byte as a character. -/
def byte (i : Int) : Char := Char.ofNat (UInt8.ofInt i).toNat

/-- `funcFillChar(i, j, n, k)` while nothing blinks: the characters it writes
into the block, each with its position. -/
def funcFillChar (t : Variables) (i : UInt8) (j : Nat) (n : UInt8) : List (Char × Nat) :=
  let n := n.toNat
  match j with
  | 0 =>
    let i := if i > 6 then 6 else i
    [(byte (i.toNat + 48), n)]
  | 1 =>
    let i := if i > 99 then 99 else i
    [(byte (i.toNat / 10 + 48), n), (byte (i.toNat % 10 + 48), n + 1)]
  | 2 =>
    let i := if i > 6 then 6 else i
    [(charMidday.getD i.toNat ' ', n), (charMidday.getD (i.toNat + 1) ' ', n + 1)]
  | 3 =>
    let i := if i > 54 then 54 else i
    [(charDayMon.getD i.toNat ' ', n), (charDayMon.getD (i.toNat + 1) ' ', n + 1),
      (charDayMon.getD (i.toNat + 2) ' ', n + 2)]
  | 4 =>
    let i := if i > 99 then 99 else i
    let century : Int := t.valCentury.toNat - 1
    [(byte (century.tdiv 10 + 48), n), (byte (century.tmod 10 + 48), n + 1),
      (byte (i.toNat / 10 + 48), n + 2), (byte (i.toNat % 10 + 48), n + 3)]
  | _ => []

/-- What is written for one character of the format, and how far it moves on. -/
def gettimeChar (t : Variables) (c : Char) (n : UInt8) : List (Char × Nat) × UInt8 :=
  match c with
  | 'w' => (funcFillChar t t.weekday 0 n, n + 1)
  | 'a' => (funcFillChar t (t.midday * 2) 2 n, n + 2)
  | 'A' => (funcFillChar t ((t.midday + 2) * 2) 2 n, n + 2)
  | 'd' => (funcFillChar t t.day 1 n, n + 2)
  | 'h' => (funcFillChar t t.hours 1 n, n + 2)
  | 'H' => (funcFillChar t t.Hours 1 n, n + 2)
  | 'i' => (funcFillChar t t.minutes 1 n, n + 2)
  | 'm' => (funcFillChar t t.month 1 n, n + 2)
  | 's' => (funcFillChar t t.seconds 1 n, n + 2)
  | 'y' => (funcFillChar t t.year 1 n, n + 2)
  | 'M' => (funcFillChar t ((t.month + 6) * 3) 3 n, n + 3)
  | 'D' => (funcFillChar t (t.weekday * 3) 3 n, n + 3)
  | 'Y' => (funcFillChar t t.year 4 n, n + 4)
  | c => ([(c, n.toNat)], n + 1)

/-- The second pass over the format. -/
def gettimeFill (t : Variables) : WString → UInt8 → List (Char × Nat)
  | [], n => [(WString.nul, n.toNat)]
  | c :: i, n => (gettimeChar t c n).1 ++ gettimeFill t i (gettimeChar t c n).2

/-- The memory after some writes. -/
def fill (memory : Nat → Char) (writes : List (Char × Nat)) : Nat → Char :=
  writes.foldl (fun memory p => Function.update memory p.2 p.1) memory

/-- The text at the start of a block, up to its end. -/
def cString (memory : Nat → Char) : WString := WString.cStr ((List.range 256).map memory)

/-- `gettime(i)`: the variables and the text, with what the seven reads of the
module return and what was in the memory. -/
def gettime (i : WString) (reads : Nat → UInt8) (memory : Nat → Char) (t : Variables) :
    Variables × WString :=
  let t := funcSetMoreTime (funcReadTime reads t)
  (t, cString (fill memory (gettimeFill t i 0)))

/-! ### One character of the format -/

/-- What one character of the format stands for. -/
def field (t : Variables) (c : Char) : WString := (gettimeChar t c 0).1.map Prod.fst

/-- The text. -/
def rendered (t : Variables) (i : WString) : WString := i.flatMap (field t)

theorem rendered_cons (t : Variables) (c : Char) (i : WString) :
    rendered t (c :: i) = field t c ++ rendered t i := List.flatMap_cons

theorem gettimeChar_of_not_mem (t : Variables) {c : Char} (h : c ∉ charInput) (n : UInt8) :
    gettimeChar t c n = ([(c, n.toNat)], n + 1) := by
  unfold gettimeChar
  split
  case h_14 => rfl
  all_goals exact absurd (by decide) h

/-- **One character is written next to the other.** -/
theorem gettimeChar_eq (t : Variables) (c : Char) (n : UInt8) :
    gettimeChar t c n = ((field t c).zipIdx n.toNat, n + UInt8.ofNat (field t c).length) := by
  by_cases h : c ∈ charInput
  · simp only [charInput, List.mem_cons, List.not_mem_nil, or_false] at h
    rcases h with rfl | rfl | rfl | rfl | rfl | rfl | rfl | rfl | rfl | rfl | rfl | rfl | rfl
    all_goals rfl
  · rw [field, gettimeChar_of_not_mem t h, gettimeChar_of_not_mem t h]
    rfl

theorem gettimeExtra_eq (k : Nat) (n : UInt8) : gettimeExtra k n = n + gettimeExtra k 0 := by
  unfold gettimeExtra
  split_ifs
  all_goals simp [UInt8.add_assoc]

/-- **Both passes take a character to be of the same width.** -/
theorem gettimeSize_step (t : Variables) (c : Char) (n : UInt8) :
    charInput.zipIdx.foldl (fun n b => if c = b.1 then gettimeExtra b.2 n else n) n + 1 =
      n + UInt8.ofNat (field t c).length := by
  by_cases h : c ∈ charInput
  · simp only [charInput, List.mem_cons, List.not_mem_nil, or_false] at h
    rcases h with rfl | rfl | rfl | rfl | rfl | rfl | rfl | rfl | rfl | rfl | rfl | rfl | rfl
    all_goals
      simp only [charInput, List.zipIdx_cons, List.zipIdx_nil, List.foldl_cons, List.foldl_nil,
        Char.reduceEq, if_true, if_false]
      rw [gettimeExtra_eq, UInt8.add_assoc]
      rfl
  · have hne : ∀ x ∈ charInput, c ≠ x := fun x hx heq => h (heq ▸ hx)
    simp only [charInput, List.forall_mem_cons] at hne
    rw [field, gettimeChar_of_not_mem t h]
    simp [charInput, hne]

/-! ### The whole format -/

theorem toNat_add_ofNat {n : UInt8} {k : Nat} (h : n.toNat + k < 256) :
    (n + UInt8.ofNat k).toNat = n.toNat + k := by
  rw [UInt8.toNat_add, UInt8.toNat_ofNat']
  omega

/-- **What is written**: the text and its end, in order and without a gap. -/
theorem gettimeFill_eq (t : Variables) (i : WString) {n : UInt8}
    (h : n.toNat + (rendered t i).length < 256) :
    gettimeFill t i n = (rendered t i ++ [WString.nul]).zipIdx n.toNat := by
  induction i generalizing n with
  | nil => rfl
  | cons c i ih =>
    rw [rendered_cons, List.length_append] at h
    have hnext := toNat_add_ofNat (n := n) (k := (field t c).length) (by omega)
    rw [gettimeFill, gettimeChar_eq, rendered_cons, List.append_assoc,
      @List.zipIdx_append _ (field t c)]
    dsimp only
    rw [ih (by omega), hnext]

theorem gettimeSize_foldl (t : Variables) (i : WString) (n : UInt8) :
    i.foldl (fun n c => charInput.zipIdx.foldl
        (fun n b => if c = b.1 then gettimeExtra b.2 n else n) n) n + UInt8.ofNat i.length =
      n + UInt8.ofNat (rendered t i).length := by
  induction i generalizing n with
  | nil => rfl
  | cons c i ih =>
    have hstep := gettimeSize_step t c n
    have hrest := ih (charInput.zipIdx.foldl
      (fun n b => if c = b.1 then gettimeExtra b.2 n else n) n)
    rw [List.foldl_cons, List.length_cons, UInt8.ofNat_add, ← UInt8.add_assoc, hrest, rendered_cons,
      List.length_append, UInt8.ofNat_add, ← UInt8.add_assoc, ← hstep, UInt8.add_assoc,
      UInt8.add_assoc]
    congr 1
    exact UInt8.add_comm ..

/-- **The size** is that of the text and its end. -/
theorem gettimeSize_eq (t : Variables) (i : WString) :
    gettimeSize i = UInt8.ofNat ((rendered t i).length + 1) := by
  have hfold := gettimeSize_foldl t i (UInt8.ofNat (i.length + 1))
  rw [← gettimeSize] at hfold
  rw [UInt8.ofNat_add, UInt8.add_comm (UInt8.ofNat i.length), UInt8.add_assoc,
    UInt8.add_comm (UInt8.ofNat i.length), ← UInt8.add_assoc, UInt8.add_left_inj] at hfold
  rw [hfold, UInt8.ofNat_add, UInt8.add_comm]

/-! ### The text -/

theorem fill_zipIdx (memory : Nat → Char) (xs : List Char) (n p : Nat) :
    fill memory (xs.zipIdx n) p = if n ≤ p ∧ p < n + xs.length then xs.getD (p - n) ' ' else memory p := by
  induction xs generalizing memory n with
  | nil =>
    rw [if_neg (by rw [List.length_nil]; omega)]
    rfl
  | cons x xs ih =>
    rw [List.zipIdx_cons, fill, List.foldl_cons, ← fill, ih]
    rw [List.length_cons]
    by_cases hp : p = n
    · subst hp
      rw [if_neg (by omega), if_pos (by omega), Nat.sub_self, Function.update_self]
      rfl
    · by_cases hin : n + 1 ≤ p ∧ p < n + 1 + xs.length
      · rw [if_pos hin, if_pos (by omega), show p - n = p - (n + 1) + 1 by omega]
        rfl
      · rw [if_neg hin, if_neg (by omega), Function.update_of_ne hp]

/-- What is written at the start of a block is read from it. -/
theorem cString_fill (memory : Nat → Char) {text : WString} (hlen : text.length < 256)
    (hnul : WString.nul ∉ text) :
    cString (fill memory ((text ++ [WString.nul]).zipIdx 0)) = text := by
  have hprefix : (List.range (text.length + 1)).map
      (fill memory ((text ++ [WString.nul]).zipIdx 0)) = text ++ [WString.nul] := by
    apply List.ext_getElem
    · simp
    · intro p hp hp'
      have hlt : p < text.length + 1 := by simpa using hp
      rw [List.getElem_map, List.getElem_range, fill_zipIdx, if_pos (by simp; omega), Nat.sub_zero]
      exact List.getD_eq_getElem _ _ hp'
  obtain ⟨k, hk⟩ : ∃ k, 256 = text.length + 1 + k := ⟨255 - text.length, by omega⟩
  have hall : ∀ c ∈ text, decide (c ≠ WString.nul) = true := by
    intro c hc
    rw [decide_eq_true_eq]
    rintro rfl
    exact hnul hc
  rw [cString, WString.cStr, hk, List.range_add, List.map_append, hprefix, List.append_assoc,
    List.takeWhile_append_of_pos hall]
  simp

theorem byte_ne_nul {i : Int} (hlo : 0 < i) (hhi : i < 256) : byte i ≠ WString.nul := by
  obtain ⟨n, rfl⟩ := Int.eq_ofNat_of_zero_le hlo.le
  have hall : ∀ n < 256, 0 < n → byte (n : Nat) ≠ WString.nul := by decide +kernel
  exact hall n (by omega) (by omega)

theorem getD_ne_nul {names : List Char} (h : WString.nul ∉ names) (k : Nat) :
    names.getD k ' ' ≠ WString.nul := by
  rcases Nat.lt_or_ge k names.length with hlt | hge
  · rw [List.getD_eq_getElem _ _ hlt]
    intro heq
    apply h
    rw [← heq]
    exact List.getElem_mem hlt
  · rw [List.getD_eq_default _ _ hge]
    decide

theorem clamp_le (i m : UInt8) : (if i > m then m else i).toNat ≤ m.toNat := by
  split_ifs with h
  · exact Nat.le_refl _
  · exact Nat.not_lt.mp h

/-- Nothing that is filled in ends the text. -/
theorem funcFillChar_ne_nul (t : Variables) (i : UInt8) (j : Nat) (n : UInt8) :
    ∀ p ∈ funcFillChar t i j n, p.1 ≠ WString.nul := by
  have hmidday : WString.nul ∉ charMidday := by decide
  have hnames : WString.nul ∉ charDayMon := by decide
  have hcentury : ∀ v < 256, byte (((v : Nat) - 1 : Int).tdiv 10 + 48) ≠ WString.nul ∧
      byte (((v : Nat) - 1 : Int).tmod 10 + 48) ≠ WString.nul := by
    decide +kernel
  have hclamp6 : (if i > 6 then 6 else i).toNat ≤ 6 := clamp_le i 6
  have hclamp99 : (if i > 99 then 99 else i).toNat ≤ 99 := clamp_le i 99
  unfold funcFillChar
  split
  all_goals
    simp only [List.forall_mem_cons, List.not_mem_nil, false_imp_iff, implies_true, and_true]
  · exact byte_ne_nul (by omega) (by omega)
  · exact ⟨byte_ne_nul (by omega) (by omega), byte_ne_nul (by omega) (by omega)⟩
  · exact ⟨getD_ne_nul hmidday _, getD_ne_nul hmidday _⟩
  · exact ⟨getD_ne_nul hnames _, getD_ne_nul hnames _, getD_ne_nul hnames _⟩
  · obtain ⟨htens, hunits⟩ := hcentury t.valCentury.toNat t.valCentury.toNat_lt
    exact ⟨htens, hunits, byte_ne_nul (by omega) (by omega), byte_ne_nul (by omega) (by omega)⟩

theorem nul_notMem_rendered (t : Variables) {i : WString} (h : WString.nul ∉ i) :
    WString.nul ∉ rendered t i := by
  intro hx
  obtain ⟨c, hc, hxc⟩ := List.mem_flatMap.mp hx
  obtain ⟨p, hp, hnul⟩ := List.mem_map.mp hxc
  unfold gettimeChar at hp
  split at hp
  case h_14 =>
    apply h
    rw [← hnul, List.mem_singleton.mp hp]
    exact hc
  all_goals
    dsimp only at hp
    exact funcFillChar_ne_nul t _ _ 0 p hp hnul

theorem gettime_text (i : WString) (reads : Nat → UInt8) (memory : Nat → Char) (t : Variables)
    (h : WString.nul ∉ i)
    (hlen : (rendered (gettime i reads memory t).1 i).length < 255) :
    (gettime i reads memory t).2 = rendered (gettime i reads memory t).1 i := by
  have hfill := gettimeFill_eq (gettime i reads memory t).1 i (n := 0)
    (by rw [UInt8.toNat_zero]; omega)
  refine Eq.trans ?_ (cString_fill memory (Nat.lt_succ_of_lt hlen) (nul_notMem_rendered _ h))
  rw [← UInt8.toNat_zero, ← hfill]
  rfl

/-- **The text of a format**, whatever was in the memory and whatever the module
returns: it is written into the block from its first byte to its last one, and
nowhere else, and it is what `gettime` returns. -/
theorem gettime_contained (i : WString) (reads : Nat → UInt8) (memory : Nat → Char) (t : Variables)
    (h : WString.nul ∉ i)
    (hlen : (rendered (gettime i reads memory t).1 i).length < 255) :
    (gettime i reads memory t).2 = rendered (gettime i reads memory t).1 i ∧
      (gettimeFill (gettime i reads memory t).1 i 0).map Prod.snd =
        List.range (gettimeSize i).toNat := by
  refine ⟨gettime_text i reads memory t h hlen, ?_⟩
  rw [gettimeFill_eq _ i (n := 0) (by rw [UInt8.toNat_zero]; omega), UInt8.toNat_zero,
    List.zipIdx_map_snd, gettimeSize_eq (gettime i reads memory t).1, UInt8.toNat_ofNat',
    Nat.mod_eq_of_lt (by omega), List.length_append, List.range_eq_range']
  rfl

/-- A format of all service characters, with a module that returns nothing but ones. -/
theorem gettime_contained_all :
    (gettimeFill (gettime charInput (fun _ => 0xFF) (fun _ => 'x') .initial).1 charInput 0).map Prod.snd =
      List.range (gettimeSize charInput).toNat :=
  (gettime_contained charInput (fun _ => 0xFF) (fun _ => 'x') .initial (by decide)
    (by decide)).2

end Polivunator.Rtc
