import Mathlib.Data.List.GetD
import Mathlib.Data.List.Induction

/-!
# Cutting a list into fields

`List.splitOn` cuts a list at every separator, so a separator that ends the list
is followed by an empty field.  A loop that reads the list once and closes the
open field when the list ends has no element left to do that with: it takes the
last element for the end of its field, whatever it is.  `cut` is what such a
loop finds.

`getD_cut` compares the two.  Field by field they agree, except that a separator
that ends the list stays in the field it closes.
-/

namespace Fields

universe u

variable {α : Type u} [DecidableEq α]

/-- The fields, the last element being taken into the last field. -/
def cut (d : α) : List α → List (List α)
  | [] => []
  | [a] => [[a]]
  | a :: b :: l => if a = d then [] :: cut d (b :: l) else (cut d (b :: l)).modifyHead (List.cons a)

theorem cut_cons_of_ne (d a : α) {l : List α} (h : l ≠ []) :
    cut d (a :: l) = if a = d then [] :: cut d l else (cut d l).modifyHead (List.cons a) := by
  cases l with
  | nil => exact absurd rfl h
  | cons b l => rfl

/-! ### The fields of `splitOn` -/

theorem length_splitOn (d : α) (l : List α) : (l.splitOn d).length = l.count d + 1 := by
  induction l with
  | nil => rfl
  | cons a l ih =>
    rw [List.splitOn_cons_eq_if_modifyHead, List.count_cons]
    split_ifs
    · rw [List.length_cons, ih]
    · rw [List.length_modifyHead, ih]

theorem notMem_splitOn {d : α} {l f : List α} (h : f ∈ l.splitOn d) : d ∉ f := by
  induction l generalizing f with
  | nil =>
    rw [List.splitOn_nil, List.mem_singleton] at h
    rw [h]
    exact List.not_mem_nil
  | cons a l ih =>
    obtain ⟨g, fs, hfs⟩ := List.exists_cons_of_ne_nil (List.splitOn_ne_nil d l)
    rw [List.splitOn_cons_eq_if_modifyHead, hfs] at h
    rw [hfs] at ih
    split_ifs at h with ha
    · rcases List.mem_cons.mp h with rfl | h
      · exact List.not_mem_nil
      · exact ih h
    · rcases List.mem_cons.mp h with rfl | h
      · rw [List.mem_cons, not_or]
        exact ⟨fun he => ha (by simp [he]), ih (List.mem_cons_self ..)⟩
      · exact ih (List.mem_cons_of_mem g h)

theorem notMem_getD_splitOn (d : α) (l : List α) (i : Nat) : d ∉ (l.splitOn d).getD i [] := by
  by_cases hi : i < (l.splitOn d).length
  · rw [List.getD_eq_getElem _ _ hi]
    exact notMem_splitOn (List.getElem_mem hi)
  · rw [List.getD_eq_default _ _ (by omega)]
    exact List.not_mem_nil

/-! ### The two compared -/

theorem cut_eq_splitOn {d : α} {l : List α} (hne : l ≠ []) (hlast : l.getLast? ≠ some d) :
    cut d l = l.splitOn d := by
  induction l with
  | nil => exact absurd rfl hne
  | cons a l ih =>
    cases l with
    | nil =>
      have ha : d ∉ [a] := by
        rw [List.mem_singleton]
        exact fun he => hlast (congrArg some he.symm)
      rw [List.splitOn_eq_singleton ha]
      rfl
    | cons b l =>
      rw [List.getLast?_cons_cons] at hlast
      rw [cut_cons_of_ne d a (List.cons_ne_nil b l), ih (List.cons_ne_nil b l) hlast,
        List.splitOn_cons_eq_if_modifyHead a]
      simp only [beq_iff_eq]

/-- Two fields. -/
theorem cut_pair {d : α} {l m : List α} (hl : d ∉ l) (hm : d ∉ m) (hne : m ≠ []) :
    cut d (l ++ d :: m) = [l, m] := by
  have hlast : (l ++ d :: m).getLast? ≠ some d := by
    intro h
    rw [List.getLast?_append, List.getLast?_cons_of_ne_nil hne] at h
    obtain ⟨m, b, rfl⟩ := (List.eq_nil_or_concat m).resolve_left hne
    rw [List.concat_eq_append, List.getLast?_concat, Option.some_or] at h
    exact hm (by simp [Option.some.inj h])
  rw [cut_eq_splitOn (by simp) hlast, List.splitOn_append_cons_self_of_not_mem hl,
    List.splitOn_eq_singleton hm]

/-- The last element goes to the end of the last field. -/
theorem cut_concat (d : α) (l : List α) (a : α) :
    ∃ fs f, l.splitOn d = fs ++ [f] ∧ cut d (l ++ [a]) = fs ++ [f ++ [a]] := by
  induction l with
  | nil => exact ⟨[], [], rfl, rfl⟩
  | cons b l ih =>
    obtain ⟨fs, f, hsplit, hcut⟩ := ih
    rw [List.cons_append, cut_cons_of_ne d b (by simp), hcut, List.splitOn_cons_eq_if_modifyHead,
      hsplit]
    simp only [beq_iff_eq]
    split_ifs
    · exact ⟨[] :: fs, f, rfl, rfl⟩
    · cases fs with
      | nil => exact ⟨[], b :: f, rfl, rfl⟩
      | cons g fs => exact ⟨(b :: g) :: fs, f, rfl, rfl⟩

/-- **Field by field.**  A separator that ends the list stays in the field it
closes; everything else is `splitOn`. -/
theorem getD_cut (d : α) (l : List α) (i : Nat) :
    (cut d l).getD i [] =
      (l.splitOn d).getD i [] ++ if l.getLast? = some d ∧ l.count d = i + 1 then [d] else [] := by
  rcases List.eq_nil_or_concat l with rfl | ⟨l, a, rfl⟩
  · cases i <;> rfl
  rw [List.concat_eq_append]
  by_cases ha : a = d
  · subst ha
    obtain ⟨fs, f, hsplit, hcut⟩ := cut_concat a l a
    have hlen : fs.length = l.count a := by
      have hsucc := length_splitOn a l
      rw [hsplit, List.length_append] at hsucc
      exact Nat.add_right_cancel hsucc
    have hcount : (l ++ [a]).count a = fs.length + 1 := by
      rw [List.count_append, List.count_singleton_self, hlen]
    rw [hcut, List.splitOn_append_cons_self l [], hsplit, List.splitOn_nil, hcount,
      List.getLast?_concat, List.append_assoc]
    rcases Nat.lt_trichotomy i fs.length with hi | rfl | hi
    · rw [if_neg (by omega), List.append_nil, List.getD_append _ _ _ _ hi, List.getD_append _ _ _ _ hi]
    · rw [if_pos ⟨rfl, rfl⟩, List.getD_append_right _ _ _ _ (Nat.le_refl _),
        List.getD_append_right _ _ _ _ (Nat.le_refl _), Nat.sub_self]
      rfl
    · rw [if_neg (by omega), List.append_nil, List.getD_append_right _ _ _ _ (by omega),
        List.getD_append_right _ _ _ _ (by omega)]
      obtain ⟨n, hn⟩ := Nat.exists_eq_add_of_lt hi
      rw [show i - fs.length = n + 1 by omega]
      cases n <;> rfl
  · have hlast : (l ++ [a]).getLast? ≠ some d := by
      rw [List.getLast?_concat]
      exact fun he => ha (Option.some.inj he)
    rw [cut_eq_splitOn (by simp) hlast, if_neg (fun hc => hlast hc.1), List.append_nil]

end Fields
