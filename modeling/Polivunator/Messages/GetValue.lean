import Polivunator.Library.Fields
import Polivunator.Sketch.Receivesms

/-!
# What `getValue` selects

`getValue(data, separator, index)` walks through the text once and keeps the two
ends of the field it is in.  The last character closes the open field even if it
is no separator, so `getValue_eq` reads: the field with this index among those
`Fields.cut` finds, as a C string.

The last character goes into the field it closes even if it is a separator.
`getValue_eq_field` says what comes of it, and `selects_iff` that it is the only
thing that goes wrong: the field that a separator at the end of the text closes
is returned with that separator.  `trailing_separator` is such a field.
-/

namespace Polivunator

open WString

/-- The text between the two ends, once enough fields are found. -/
def cutText (data : WString) (index : Nat) (c : Cut) : WString :=
  if c.found > index then substring data c.left.toNat c.right.toNat else []

/-! ### The loop -/

section Loop

variable {data : WString} {separator : Char} {index n i : Nat} {c : Cut}

/-- Once the field is found the loop does nothing more. -/
theorem getValueLoop_of_found (h : index < c.found) :
    getValueLoop data separator index n i c = c := by
  cases n with
  | zero => rfl
  | succ n => rw [getValueLoop, if_neg (Nat.not_le.mpr h)]

theorem getValueLoop_last (h : c.found ≤ index) :
    getValueLoop data separator index 1 i c = ⟨c.found + 1, c.right + 1, (i : Int) + 1⟩ := by
  rw [getValueLoop, if_pos h, if_pos (Or.inr rfl), if_pos rfl, getValueLoop]

theorem getValueLoop_separator (h : c.found ≤ index) (hn : n ≠ 0)
    (hc : data.getD i nul = separator) :
    getValueLoop data separator index (n + 1) i c =
      getValueLoop data separator index n (i + 1) ⟨c.found + 1, c.right + 1, i⟩ := by
  rw [getValueLoop, if_pos h, if_pos (Or.inl hc), if_neg hn]

theorem getValueLoop_other (h : c.found ≤ index) (hn : n ≠ 0) (hc : data.getD i nul ≠ separator) :
    getValueLoop data separator index (n + 1) i c =
      getValueLoop data separator index n (i + 1) c := by
  rw [getValueLoop, if_pos h, if_neg (not_or.mpr ⟨hc, hn⟩)]

/-- A field is closed: it is the one asked for, or too few are found. -/
theorem cutText_closed {l m r : WString} {found : Nat} (hdata : data = l ++ m ++ r)
    (h : found ≤ index) {left right : Int} (hleft : left = l.length)
    (hright : right = (l ++ m).length) :
    cutText data index ⟨found + 1, left, right⟩ = if found = index then cStr m else [] := by
  subst hdata hleft hright
  by_cases hlast : found = index
  · rw [cutText, if_pos (show found + 1 > index by omega), if_pos hlast, Int.toNat_natCast,
      Int.toNat_natCast, substring_of_le (by rw [List.length_append]; omega), List.take_left,
      List.drop_left]
  · rw [cutText, if_neg (show ¬ found + 1 > index by omega), if_neg hlast]

theorem modifyHead_nil_append (fs : List WString) : fs.modifyHead (([] : WString) ++ ·) = fs := by
  cases fs <;> rfl

/-- The text is `l`, whose fields are closed, the open field `m`, and the rest `r`.
By induction on the rest: a separator closes `m`, the last character closes `m`
together with itself, and any other character goes into `m`. -/
theorem cutText_getValueLoop (l m r : WString) (found : Nat) (left right : Int)
    (hdata : data = l ++ m ++ r) (hfound : found ≤ index) (hright : right + 1 = l.length) :
    cutText data index
        (getValueLoop data separator index r.length (l ++ m).length ⟨found, left, right⟩) =
      cStr (((Fields.cut separator r).modifyHead (m ++ ·)).getD (index - found) []) := by
  induction r generalizing l m found left right with
  | nil =>
    rw [List.length_nil, getValueLoop, cutText, if_neg (Nat.not_lt.mpr hfound)]
    rfl
  | cons c r ih =>
    have hchar : data.getD (l ++ m).length nul = c := by
      rw [hdata, List.getD_append_right _ _ _ _ (Nat.le_refl _), Nat.sub_self]
      rfl
    have hgrown : data = l ++ (m ++ [c]) ++ r := by
      rw [hdata]
      simp
    have hlength : (l ++ (m ++ [c])).length = (l ++ m).length + 1 := by
      rw [← List.append_assoc, List.length_append, List.length_singleton]
    by_cases hr : r = []
    · subst hr
      rw [List.length_singleton, getValueLoop_last hfound,
        cutText_closed hgrown hfound hright (by rw [hlength]; rfl)]
      show _ = cStr ([m ++ [c]].getD (index - found) [])
      split_ifs with hlast
      · rw [hlast, Nat.sub_self]
        rfl
      · rw [List.getD_eq_default _ _ (by rw [List.length_singleton]; omega)]
        rfl
    have hlen : r.length ≠ 0 := fun h => hr (List.eq_nil_of_length_eq_zero h)
    rw [List.length_cons, Fields.cut_cons_of_ne separator c hr]
    by_cases hc : c = separator
    · rw [getValueLoop_separator hfound hlen (hchar.trans hc), if_pos hc]
      show _ = cStr (((m ++ []) :: Fields.cut separator r).getD (index - found) [])
      by_cases hlast : found = index
      · rw [getValueLoop_of_found (show index < found + 1 by omega), cutText_closed hdata hfound hright rfl, if_pos hlast,
          hlast, Nat.sub_self, List.append_nil]
        rfl
      · -- the next field is open, and empty
        have hopen := ih (l ++ (m ++ [c])) [] (found + 1) (right + 1) (l ++ m).length
          (by rw [hgrown, List.append_nil]) (by omega) (by rw [hlength]; rfl)
        rw [List.append_nil, hlength] at hopen
        rw [hopen, modifyHead_nil_append, show index - found = index - (found + 1) + 1 by omega]
        rfl
    · have hopen := ih l (m ++ [c]) found left right hgrown hfound hright
      rw [hlength] at hopen
      rw [getValueLoop_other hfound hlen (by rw [hchar]; exact hc), hopen, if_neg hc,
        List.modifyHead_modifyHead]
      congr 3
      funext f
      simp

end Loop

/-! ### Fields -/

/-- **`getValue` is the field, among those `cut` finds, as a C string.** -/
theorem getValue_eq (data : WString) (separator : Char) (index : Nat) :
    getValue data separator index = cStr ((Fields.cut separator data).getD index []) := by
  have hloop : cutText data index (getValueLoop data separator index data.length 0 ⟨0, 0, -1⟩) =
      cStr (((Fields.cut separator data).modifyHead (([] : WString) ++ ·)).getD (index - 0) []) :=
    cutText_getValueLoop [] [] data 0 0 (-1) rfl (Nat.zero_le _) rfl
  rw [modifyHead_nil_append, Nat.sub_zero] at hloop
  exact hloop

/-- What stands between the separators, and nothing past the last field.  A
separator at either end of the text and two in a row have an empty field. -/
def field (data : WString) (separator : Char) (index : Nat) : WString :=
  (data.splitOn separator).getD index []

/-- The field is closed by the last character of the text. -/
def ClosedByLast (data : WString) (separator : Char) (index : Nat) : Prop :=
  data.getLast? = some separator ∧ data.count separator = index + 1

instance (data : WString) (separator : Char) (index : Nat) :
    Decidable (ClosedByLast data separator index) := by
  unfold ClosedByLast
  infer_instance

theorem getValue_eq_field (data : WString) (separator : Char) (index : Nat) :
    getValue data separator index = cStr (field data separator index ++
      if ClosedByLast data separator index then [separator] else []) := by
  rw [getValue_eq, Fields.getD_cut]
  rfl

/-- `getValue` selects the field. -/
def Selects (data : WString) (separator : Char) (index : Nat) : Prop :=
  getValue data separator index = field data separator index ∧
    separator ∉ getValue data separator index

/-- **`getValue` selects the field, unless the last character closes it.**  The
field has to be a C string, and a NUL at the end of one does not show. -/
theorem selects_iff (data : WString) (separator : Char) (index : Nat) :
    Selects data separator index ↔
      nul ∉ field data separator index ∧
        (ClosedByLast data separator index → separator = nul) := by
  rw [Selects, getValue_eq_field]
  constructor
  · rintro ⟨heq, hsep⟩
    have hnul : nul ∉ field data separator index := by
      rw [← heq]
      exact nul_notMem_cStr _
    refine ⟨hnul, fun hclosed => ?_⟩
    by_contra hne
    rw [if_pos hclosed] at hsep
    refine hsep ?_
    rw [cStr_eq_self]
    · exact List.mem_append_right _ (List.mem_singleton_self separator)
    · rw [List.mem_append, List.mem_singleton, not_or]
      exact ⟨hnul, fun he => hne he.symm⟩
  · rintro ⟨hnul, hclosed⟩
    have heq : cStr (field data separator index ++
        if ClosedByLast data separator index then [separator] else []) =
          field data separator index := by
      split_ifs with hlast
      · obtain rfl := hclosed hlast
        exact cStr_append_nul hnul
      · rw [List.append_nil]
        exact cStr_eq_self hnul
    rw [heq]
    exact ⟨rfl, Fields.notMem_getD_splitOn separator data index⟩

/-- The space stays in the number of the bed. -/
theorem trailing_separator :
    ¬ ∀ (data : WString) (separator : Char) (index : Nat), Selects data separator index := by
  intro h
  exact (h "1 ".toList ' ' 0).2 (by decide)

end Polivunator
