import Polivunator.Library.Labelled
import Mathlib.Data.Fintype.Basic
import Mathlib.Data.Bool.Basic

/-!
# What the valves are for

The abstract controller of a set of valves, over an arbitrary finite type of
beds.  A valve is closed, or somebody holds it open: a person, or the automatic
mode.  The automatic mode pauses as long as a person holds any valve, and when
it is not paused a tick opens the valves that are due and closes the others.

There is one more bit, `global`, which remembers that every valve was opened by
one command.  A `Controller` carries the proof that it tells the truth, so a
controller whose global bit is set while some bed is not held by hand does not
exist.

`manual_run`, `global_run` and `automatic_run` are the closed forms.  What a
person holds is decided by the last command that concerned every bed and the
parity of the single switches since.  What the automatic mode holds is what was
due at the last tick that found nobody holding a valve, less what a person has
switched since.
-/

namespace Polivunator.Valve

open Labelled

universe u

/-- Who keeps a valve open. -/
inductive Hold
  | closed
  | manual
  | automatic
  deriving DecidableEq

/-- A command to the controller.  A tick says which beds are due. -/
inductive Command (κ : Type u)
  | on
  | off
  | toggle (k : κ)
  | tick (due : κ → Bool)

structure Controller (κ : Type u) where
  hold : κ → Hold
  global : Bool
  global_manual : global = true → ∀ k, hold k = .manual

namespace Controller

theorem global_of_not_manual {κ : Type u} {c : Controller κ} {k : κ} (h : c.hold k ≠ .manual) :
    c.global = false := by
  by_contra hg
  exact h (c.global_manual (by simpa using hg) k)

section Toggle

variable {κ : Type u} [DecidableEq κ]

/-- Switch one bed by hand. -/
def toggle (c : Controller κ) (k : κ) : Controller κ :=
  if h : c.hold k = .manual then
    ⟨fun j => if j = k then .closed else c.hold j, false, fun h => by simp at h⟩
  else
    ⟨fun j => if j = k then .manual else c.hold j, c.global,
      fun hg => absurd (c.global_manual hg k) h⟩

theorem toggle_hold (c : Controller κ) (k j : κ) :
    (c.toggle k).hold j =
      if j = k then (if c.hold k = .manual then .closed else .manual) else c.hold j := by
  by_cases h : c.hold k = .manual
  · rw [toggle, dif_pos h, if_pos h]
  · rw [toggle, dif_neg h, if_neg h]

theorem toggle_manual (c : Controller κ) (k j : κ) :
    (c.toggle k).hold j = .manual ↔
      if j = k then c.hold k ≠ .manual else c.hold j = .manual := by
  rw [toggle_hold]
  by_cases h : c.hold k = .manual <;> by_cases hj : j = k <;> simp [h, hj]

theorem toggle_global (c : Controller κ) (k : κ) : (c.toggle k).global = false := by
  by_cases h : c.hold k = .manual
  · rw [toggle, dif_pos h]
  · rw [toggle, dif_neg h]
    show c.global = false
    exact global_of_not_manual h

end Toggle

variable {κ : Type u} [DecidableEq κ] [Fintype κ]

/-- Every valve closed. -/
def idle : Controller κ := ⟨fun _ => .closed, false, fun h => by simp at h⟩

/-- Somebody holds a valve, so the automatic mode pauses. -/
def Suspended (c : Controller κ) : Prop := ∃ k, c.hold k = .manual

instance (c : Controller κ) : Decidable c.Suspended :=
  inferInstanceAs (Decidable (∃ k, c.hold k = .manual))

/-- Carry out a command. -/
def act (c : Controller κ) : Command κ → Controller κ
  | .on => ⟨fun _ => .manual, true, fun _ _ => rfl⟩
  | .off => ⟨fun _ => .closed, false, fun h => by simp at h⟩
  | .toggle k => c.toggle k
  | .tick due =>
      if c.Suspended then c
      else ⟨fun k => if due k then .automatic else .closed, false, fun h => by simp at h⟩

/-- After a list of commands, from the state with every valve closed. -/
def afterCommands (cs : List (Command κ)) : Controller κ := run act idle cs

theorem afterCommands_snoc (cs : List (Command κ)) (c : Command κ) :
    afterCommands (cs ++ [c]) = (afterCommands cs).act c := run_snoc act idle cs c

/-! ### Single steps -/

theorem tick_of_suspended {c : Controller κ} (h : c.Suspended) (due : κ → Bool) :
    c.act (.tick due) = c := if_pos h

theorem tick_hold {c : Controller κ} (h : ¬ c.Suspended) (due : κ → Bool) (k : κ) :
    (c.act (.tick due)).hold k = if due k then .automatic else .closed := by
  rw [act, if_neg h]

theorem tick_manual (c : Controller κ) (due : κ → Bool) (k : κ) :
    (c.act (.tick due)).hold k = .manual ↔ c.hold k = .manual := by
  by_cases h : c.Suspended
  · rw [tick_of_suspended h]
  · rw [tick_hold h]
    have hk : ¬ c.hold k = .manual := fun hk => h ⟨k, hk⟩
    cases due k <;> simp [hk]

theorem tick_global (c : Controller κ) (due : κ → Bool) [Nonempty κ] :
    (c.act (.tick due)).global = c.global := by
  by_cases h : c.Suspended
  · rw [tick_of_suspended h]
  · obtain ⟨k⟩ := ‹Nonempty κ›
    have hk : c.hold k ≠ .manual := fun hk => h ⟨k, hk⟩
    rw [act, if_neg h, global_of_not_manual hk]

end Controller

/-- A command after which a person may hold a valve that nobody held by hand. -/
def Command.switchesOn {κ : Type u} : Command κ → Bool
  | .on => true
  | .toggle _ => true
  | _ => false

namespace Controller

variable {κ : Type u} [DecidableEq κ] [Fintype κ]

/-! ### Without a command that switches on -/

/-- Nobody takes a valve in hand. -/
theorem run_not_manual {cs : List (Command κ)} (hcs : ∀ x ∈ cs, x.switchesOn = false)
    {c : Controller κ} (h : ∀ j, c.hold j ≠ .manual) : ∀ j, (run act c cs).hold j ≠ .manual := by
  induction cs generalizing c with
  | nil => exact h
  | cons x cs ih =>
    refine ih (fun y hy => hcs y (List.mem_cons_of_mem x hy)) (fun j => ?_)
    have hx := hcs x (List.mem_cons_self ..)
    cases x with
    | on => exact absurd hx (by simp [Command.switchesOn])
    | toggle k => exact absurd hx (by simp [Command.switchesOn])
    | off => simp [act]
    | tick due => exact fun hm => h j ((tick_manual c due j).mp hm)

/-- **A closed valve stays closed** until a tick finds its bed due. -/
theorem run_closed {cs : List (Command κ)} (hcs : ∀ x ∈ cs, x.switchesOn = false) {k : κ}
    (hdue : ∀ due, .tick due ∈ cs → due k = false) {c : Controller κ}
    (h : ∀ j, c.hold j ≠ .manual) (hk : c.hold k = .closed) :
    (run act c cs).hold k = .closed := by
  induction cs generalizing c with
  | nil => exact hk
  | cons x cs ih =>
    have hx := hcs x (List.mem_cons_self ..)
    have hrest : ∀ y ∈ cs, y.switchesOn = false := fun y hy => hcs y (List.mem_cons_of_mem x hy)
    have hone : ∀ y ∈ [x], y.switchesOn = false := by
      intro y hy
      rw [List.mem_singleton.mp hy]
      exact hx
    have hnext : ∀ j, (c.act x).hold j ≠ .manual := run_not_manual hone h
    refine ih hrest (fun due hd => hdue due (List.mem_cons_of_mem x hd)) hnext ?_
    cases x with
    | on => exact absurd hx (by simp [Command.switchesOn])
    | toggle k => exact absurd hx (by simp [Command.switchesOn])
    | off => rfl
    | tick due =>
      rw [tick_hold (fun hs => hs.elim h), hdue due (List.mem_cons_self ..)]
      rfl

end Controller

/-! ### Reading a history -/

section History

variable {κ : Type u}

/-- What a command does to every bed at once, if it is one of those. -/
def Command.absolute? : Command κ → Option Bool
  | .on => some true
  | .off => some false
  | _ => none

/-- Whether a command switches this bed alone. -/
def Command.toggles [DecidableEq κ] (k : κ) : Command κ → Bool
  | .toggle j => decide (j = k)
  | _ => false

def Command.isToggle : Command κ → Bool
  | .toggle _ => true
  | _ => false

/-- Whether the last command for every bed switched on; off at the beginning. -/
def absoluteOn (cs : List (Command κ)) : Bool :=
  (cs.reverse.findSome? Command.absolute?).getD false

/-- The commands since then, the last one first. -/
def sinceAbsolute (cs : List (Command κ)) : List (Command κ) :=
  cs.reverse.takeWhile (fun c => c.absolute?.isNone)

/-- How often this bed was switched alone since then. -/
def toggleCount [DecidableEq κ] (k : κ) (cs : List (Command κ)) : Nat :=
  (sinceAbsolute cs).countP (Command.toggles k)

/-- Whether any bed was switched alone since then. -/
def anyToggle (cs : List (Command κ)) : Bool := (sinceAbsolute cs).any Command.isToggle

theorem absoluteOn_snoc (cs : List (Command κ)) (c : Command κ) :
    absoluteOn (cs ++ [c]) = c.absolute?.getD (absoluteOn cs) := by
  rw [absoluteOn, List.reverse_append]
  cases c <;> rfl

theorem sinceAbsolute_snoc (cs : List (Command κ)) (c : Command κ) :
    sinceAbsolute (cs ++ [c]) = if c.absolute?.isNone then c :: sinceAbsolute cs else [] := by
  cases c <;> simp [sinceAbsolute, Command.absolute?]

theorem anyToggle_snoc (cs : List (Command κ)) (c : Command κ) :
    anyToggle (cs ++ [c]) = if c.absolute?.isNone then c.isToggle || anyToggle cs else false := by
  rw [anyToggle, sinceAbsolute_snoc]
  cases c.absolute? <;> rfl

variable [DecidableEq κ]

theorem toggleCount_snoc (k : κ) (cs : List (Command κ)) (c : Command κ) :
    toggleCount k (cs ++ [c]) =
      if c.absolute?.isNone then toggleCount k cs + if c.toggles k then 1 else 0 else 0 := by
  rw [toggleCount, sinceAbsolute_snoc]
  cases c.absolute? with
  | none => exact List.countP_cons
  | some b => rfl

/-- What a person holds, according to the history. -/
def manualAfter (k : κ) (cs : List (Command κ)) : Bool :=
  absoluteOn cs ^^ decide (toggleCount k cs % 2 = 1)

theorem manualAfter_snoc (k : κ) (cs : List (Command κ)) (c : Command κ) :
    manualAfter k (cs ++ [c]) =
      (c.absolute?.getD (manualAfter k cs) ^^ c.toggles k) := by
  have hparity : ∀ n : Nat, decide ((n + 1) % 2 = 1) = !decide (n % 2 = 1) := by
    intro n
    rw [← decide_not, decide_eq_decide]
    omega
  rw [manualAfter, absoluteOn_snoc, toggleCount_snoc]
  cases c with
  | on => rfl
  | off => rfl
  | tick due => simp [Command.absolute?, Command.toggles, manualAfter]
  | toggle j =>
    by_cases hj : j = k
    · simp [Command.absolute?, Command.toggles, manualAfter, hj, hparity]
    · simp [Command.absolute?, Command.toggles, manualAfter, hj]

/-- A person switches this bed, alone or with all the others. -/
def Command.concerns (k : κ) (c : Command κ) : Bool := c.absolute?.isSome || c.toggles k

/-- Nobody holds a bed by hand, according to the history. -/
def NobodyAfter (cs : List (Command κ)) : Prop := ∀ j, manualAfter j cs = false

/-- The last tick of a history that found nobody holding a bed by hand, the
beds due at it, and what came before and after. -/
structure LastFreeTick (cs pre : List (Command κ)) (due : κ → Bool) (post : List (Command κ)) :
    Prop where
  split : cs = pre ++ .tick due :: post
  free : NobodyAfter pre
  later : ∀ pre' due' post', post = pre' ++ .tick due' :: post' →
    ¬ NobodyAfter (pre ++ .tick due :: pre')

/-- The bed was due at the last tick that found nobody holding a bed by hand,
and no person has switched it since. -/
def LeftByTick (k : κ) (cs : List (Command κ)) : Prop :=
  ∃ pre due post, LastFreeTick cs pre due post ∧ due k = true ∧
    ∀ c ∈ post, c.concerns k = false

theorem not_leftByTick_nil (k : κ) : ¬ LeftByTick k ([] : List (Command κ)) := by
  rintro ⟨pre, due, post, h, -, -⟩
  exact absurd h.split (by simp)

/-- A longer list is split at its new entry or before it. -/
theorem snoc_eq_split {α : Type*} {cs pre post : List α} {c x : α} :
    cs ++ [c] = pre ++ x :: post ↔
      (cs = pre ∧ c = x ∧ post = []) ∨ ∃ post', post = post' ++ [c] ∧ cs = pre ++ x :: post' := by
  constructor
  · intro h
    rcases List.eq_nil_or_concat post with rfl | ⟨post', d, rfl⟩
    · rcases List.append_inj' h rfl with ⟨rfl, hc⟩
      exact Or.inl ⟨rfl, by simpa using hc, rfl⟩
    · have hsnoc : cs ++ [c] = (pre ++ x :: post') ++ [d] := by
        rw [h]
        simp
      rcases List.append_inj' hsnoc rfl with ⟨rfl, hc⟩
      exact Or.inr ⟨post', by simpa using hc.symm, rfl⟩
  · intro h
    rcases h with ⟨rfl, rfl, rfl⟩ | ⟨post', rfl, rfl⟩
    · rfl
    · simp

/-- After a tick that finds nobody, that tick is the last one. -/
theorem lastFreeTick_snoc_free {cs pre post : List (Command κ)} {due due' : κ → Bool}
    (h : NobodyAfter cs) :
    LastFreeTick (cs ++ [.tick due']) pre due post ↔ pre = cs ∧ due = due' ∧ post = [] := by
  constructor
  · intro hl
    rcases snoc_eq_split.mp hl.split with ⟨rfl, hdue, rfl⟩ | ⟨post', rfl, hcs⟩
    · cases hdue
      exact ⟨rfl, rfl, rfl⟩
    · rw [hcs] at h
      exact absurd h (hl.later post' due' [] rfl)
  · rintro ⟨rfl, rfl, rfl⟩
    refine ⟨rfl, h, ?_⟩
    intro pre' due' post' hpost
    exact absurd hpost (by simp)

/-- Any other command leaves the last such tick the last one. -/
theorem lastFreeTick_snoc {cs pre post : List (Command κ)} {due : κ → Bool} {c : Command κ}
    (hc : ∀ due', c = .tick due' → ¬ NobodyAfter cs) :
    LastFreeTick (cs ++ [c]) pre due post ↔
      ∃ post', post = post' ++ [c] ∧ LastFreeTick cs pre due post' := by
  constructor
  · intro hl
    rcases snoc_eq_split.mp hl.split with ⟨rfl, hdue, -⟩ | ⟨post', rfl, hcs⟩
    · exact absurd hl.free (hc due hdue)
    · refine ⟨post', rfl, hcs, hl.free, ?_⟩
      intro pre' due' late hpost
      apply hl.later pre' due' (late ++ [c])
      rw [hpost]
      simp
  · rintro ⟨post', rfl, hl⟩
    refine ⟨snoc_eq_split.mpr (Or.inr ⟨post', rfl, hl.split⟩), hl.free, ?_⟩
    intro pre' due' late hpost
    rcases snoc_eq_split.mp hpost with ⟨rfl, hdue, -⟩ | ⟨late', -, hlate⟩
    · rw [← hl.split]
      exact hc due' hdue
    · exact hl.later pre' due' late' hlate

theorem leftByTick_snoc_free {k : κ} {cs : List (Command κ)} (due : κ → Bool)
    (h : NobodyAfter cs) : LeftByTick k (cs ++ [.tick due]) ↔ due k = true := by
  constructor
  · rintro ⟨pre, due', post, hl, hk, -⟩
    obtain ⟨-, rfl, -⟩ := (lastFreeTick_snoc_free h).mp hl
    exact hk
  · intro hk
    exact ⟨cs, due, [], (lastFreeTick_snoc_free h).mpr ⟨rfl, rfl, rfl⟩, hk, by simp⟩

theorem leftByTick_snoc {k : κ} {cs : List (Command κ)} {c : Command κ}
    (hc : ∀ due, c = .tick due → ¬ NobodyAfter cs) :
    LeftByTick k (cs ++ [c]) ↔ c.concerns k = false ∧ LeftByTick k cs := by
  constructor
  · rintro ⟨pre, due, post, hl, hk, huntouched⟩
    obtain ⟨post, rfl, hl'⟩ := (lastFreeTick_snoc hc).mp hl
    refine ⟨huntouched c (by simp), pre, due, post, hl', hk, ?_⟩
    intro d hd
    exact huntouched d (List.mem_append_left _ hd)
  · rintro ⟨hconcerns, pre, due, post, hl, hk, huntouched⟩
    refine ⟨pre, due, post ++ [c], (lastFreeTick_snoc hc).mpr ⟨post, rfl, hl⟩, hk, ?_⟩
    intro d hd
    rcases List.mem_append.mp hd with hd | hd
    · exact huntouched d hd
    · rw [List.mem_singleton.mp hd]
      exact hconcerns

end History

/-! ### The closed forms -/

namespace Controller

variable {κ : Type u} [DecidableEq κ] [Fintype κ]

/-- **Who is held by hand** is the last command for every bed, turned round
once for every switch of the bed since. -/
theorem manual_run (k : κ) (cs : List (Command κ)) :
    (afterCommands cs).hold k = .manual ↔ manualAfter k cs = true := by
  induction cs using List.reverseRecOn with
  | nil => simp [afterCommands, idle, manualAfter, absoluteOn, toggleCount, sinceAbsolute]
  | append_singleton cs c ih =>
    rw [afterCommands_snoc, manualAfter_snoc]
    cases c with
    | on => simp [act, Command.absolute?, Command.toggles]
    | off => simp [act, Command.absolute?, Command.toggles]
    | tick due => rw [tick_manual, ih]; simp [Command.absolute?, Command.toggles]
    | toggle j =>
      rw [act, toggle_manual]
      by_cases hj : k = j
      · subst hj
        simp [Command.absolute?, Command.toggles, ih]
      · simp [Command.absolute?, Command.toggles, ih, hj, Ne.symm hj]

/-- **The global bit** is set when the last command for every bed switched on
and no bed was switched alone since. -/
theorem global_run [Nonempty κ] (cs : List (Command κ)) :
    (afterCommands cs).global = (absoluteOn cs && !anyToggle cs) := by
  induction cs using List.reverseRecOn with
  | nil => rfl
  | append_singleton cs c ih =>
    rw [afterCommands_snoc, absoluteOn_snoc, anyToggle_snoc]
    cases c with
    | on => rfl
    | off => rfl
    | tick due => rw [tick_global, ih]; rfl
    | toggle j => rw [act, toggle_global]; simp [Command.absolute?, Command.isToggle]

theorem not_suspended_iff (cs : List (Command κ)) :
    ¬ (afterCommands cs).Suspended ↔ NobodyAfter cs := by
  rw [Suspended, not_exists, NobodyAfter]
  refine forall_congr' fun j => ?_
  rw [manual_run, Bool.not_eq_true]

/-- Only a tick that finds nobody gives a bed to the automatic mode. -/
theorem act_automatic {c : Controller κ} {x : Command κ}
    (hx : ∀ due, x = .tick due → c.Suspended) (k : κ) :
    (c.act x).hold k = .automatic ↔ x.concerns k = false ∧ c.hold k = .automatic := by
  cases x with
  | on => simp [act, Command.concerns, Command.absolute?]
  | off => simp [act, Command.concerns, Command.absolute?]
  | tick due =>
    rw [tick_of_suspended (hx due rfl)]
    simp [Command.concerns, Command.absolute?, Command.toggles]
  | toggle j =>
    rw [act, toggle_hold]
    by_cases hj : k = j
    · subst hj
      by_cases hm : c.hold k = .manual <;>
        simp [Command.concerns, Command.absolute?, Command.toggles, hm]
    · simp [Command.concerns, Command.absolute?, Command.toggles, hj, Ne.symm hj]

/-- **What the automatic mode holds** is what was due at the last tick that
found nobody holding a bed by hand, and no person has switched since. -/
theorem automatic_run (k : κ) (cs : List (Command κ)) :
    (afterCommands cs).hold k = .automatic ↔ LeftByTick k cs := by
  induction cs using List.reverseRecOn with
  | nil => exact iff_of_false (by simp [afterCommands, idle]) (not_leftByTick_nil k)
  | append_singleton cs c ih =>
    rw [afterCommands_snoc]
    by_cases hfree : NobodyAfter cs ∧ ∃ due, c = .tick due
    · obtain ⟨hnobody, due, rfl⟩ := hfree
      rw [leftByTick_snoc_free due hnobody, tick_hold ((not_suspended_iff cs).mpr hnobody)]
      cases due k <;> simp
    · have hc : ∀ due, c = .tick due → ¬ NobodyAfter cs :=
        fun due hd hn => hfree ⟨hn, due, hd⟩
      rw [leftByTick_snoc hc, ← ih]
      apply act_automatic
      intro due hd
      by_contra hs
      exact hc due hd ((not_suspended_iff cs).mp hs)

end Controller

end Polivunator.Valve
