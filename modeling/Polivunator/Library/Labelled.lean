/-!
# Runs of a deterministic labelled system

A system here is a step function `σ → ι → σ` together with a labelling that
says what a step shows to the outside: a list, so that a step may show nothing,
one thing or several.  `run` folds the step over a list of inputs and `history`
collects the labels on the way.  A Mealy machine is the case where the labels
are its outputs; a specification machine is one that is fed the labels.

* `run_invariant`: what every step keeps, every run keeps.
* `run_simulation`: a relation kept by every step, when the abstract system is
  fed the labels of that step, is kept by every run.
* `observe_run`: a function of the state that only labelled steps change is
  the same at both ends of a run with an empty history.
* `run_filter`: inputs that keep a relation on their own can be left out of one
  of two runs it relates.
* `run_project`, `history_project`: inputs that do nothing can be left out.
* `run_of_throughout`: so can inputs that do nothing in the states of this run.
-/

namespace Labelled

universe u v w x y

variable {σ : Type u} {ι : Type v} {α : Type w}

/-- The state after the inputs, in order. -/
def run (step : σ → ι → σ) (s : σ) (es : List ι) : σ := es.foldl step s

/-- The labels shown along a run, in order. -/
def history (step : σ → ι → σ) (label : σ → ι → List α) : σ → List ι → List α
  | _, [] => []
  | s, e :: es => label s e ++ history step label (step s e) es

section Basic

variable (step : σ → ι → σ) (label : σ → ι → List α)

@[simp] theorem run_nil (s : σ) : run step s [] = s := rfl

@[simp] theorem run_cons (s : σ) (e : ι) (es : List ι) :
    run step s (e :: es) = run step (step s e) es := rfl

theorem run_append (s : σ) (es fs : List ι) :
    run step s (es ++ fs) = run step (run step s es) fs := List.foldl_append ..

theorem run_snoc (s : σ) (es : List ι) (e : ι) :
    run step s (es ++ [e]) = step (run step s es) e := run_append step s es [e]

@[simp] theorem history_nil (s : σ) : history step label s [] = [] := rfl

@[simp] theorem history_cons (s : σ) (e : ι) (es : List ι) :
    history step label s (e :: es) = label s e ++ history step label (step s e) es := rfl

theorem history_append (s : σ) (es fs : List ι) :
    history step label s (es ++ fs) =
      history step label s es ++ history step label (run step s es) fs := by
  induction es generalizing s with
  | nil => rfl
  | cons e es ih => rw [List.cons_append, history_cons, history_cons, ih, run_cons,
      List.append_assoc]

theorem history_snoc (s : σ) (es : List ι) (e : ι) :
    history step label s (es ++ [e]) = history step label s es ++ label (run step s es) e := by
  rw [history_append, history_cons, history_nil, List.append_nil]

/-- What is shown along a run is shown by one of its steps. -/
theorem mem_history {s : σ} {es : List ι} {a : α} (h : a ∈ history step label s es) :
    ∃ pre e post, es = pre ++ e :: post ∧ a ∈ label (run step s pre) e := by
  induction es generalizing s with
  | nil => exact absurd h List.not_mem_nil
  | cons e es ih =>
    rw [history_cons] at h
    rcases List.mem_append.mp h with h | h
    · exact ⟨[], e, es, rfl, h⟩
    · obtain ⟨pre, f, post, rfl, hf⟩ := ih h
      exact ⟨e :: pre, f, post, rfl, hf⟩

end Basic

/-! ### Invariants and simulations -/

theorem run_invariant {step : σ → ι → σ} {inv : σ → Prop}
    (keeps : ∀ s e, inv s → inv (step s e)) :
    ∀ {s : σ} (es : List ι), inv s → inv (run step s es) := by
  intro s es
  induction es generalizing s with
  | nil => exact id
  | cons e es ih => intro h; exact ih (keeps s e h)

/-- **A step-wise simulation is a simulation of runs**, the abstract system
being fed what the concrete one shows. -/
theorem run_simulation {τ : Type x} {step : σ → ι → σ} {label : σ → ι → List α}
    {act : τ → α → τ} {R : σ → τ → Prop}
    (keeps : ∀ s t e, R s t → R (step s e) (run act t (label s e))) :
    ∀ {s : σ} {t : τ} (es : List ι), R s t →
      R (run step s es) (run act t (history step label s es)) := by
  intro s t es
  induction es generalizing s t with
  | nil => exact id
  | cons e es ih =>
    intro h
    rw [run_cons, history_cons, run_append]
    exact ih (keeps s t e h)

/-- **What only labelled steps change is unchanged by a silent run.** -/
theorem observe_run {τ : Type x} {step : σ → ι → σ} {label : σ → ι → List α} {obs : σ → τ}
    (silent : ∀ s e, label s e = [] → obs (step s e) = obs s) :
    ∀ {s : σ} (es : List ι), history step label s es = [] → obs (run step s es) = obs s := by
  intro s es
  induction es generalizing s with
  | nil => intro _; rfl
  | cons e es ih =>
    intro h
    rw [history_cons, List.append_eq_nil_iff] at h
    rw [run_cons, ih h.2, silent s e h.1]

/-- **Inputs that keep a relation on their own can be left out** of one of the
two runs. -/
theorem run_filter {τ : Type x} {step : σ → ι → σ} {step' : τ → ι → τ} {R : σ → τ → Prop}
    {p : ι → Bool} (idle : ∀ s t e, p e = false → R s t → R (step s e) t)
    (busy : ∀ s t e, R s t → R (step s e) (step' t e)) :
    ∀ {s : σ} {t : τ} (es : List ι), R s t → R (run step s es) (run step' t (es.filter p)) := by
  intro s t es
  induction es generalizing s t with
  | nil => exact id
  | cons e es ih =>
    intro h
    cases hp : p e with
    | false =>
      rw [run_cons, List.filter_cons_of_neg (by simp [hp])]
      exact ih (idle s t e hp h)
    | true =>
      rw [run_cons, List.filter_cons_of_pos hp, run_cons]
      exact ih (busy s t e h)

/-! ### Two systems that are the same up to a map -/

section Map

variable {τ : Type x} {step : σ → ι → σ} {label : σ → ι → List α} {step' : τ → ι → τ}
  {label' : τ → ι → List α} {f : σ → τ}

theorem run_map (hstep : ∀ s e, f (step s e) = step' (f s) e) (s : σ) (es : List ι) :
    f (run step s es) = run step' (f s) es := by
  induction es generalizing s with
  | nil => rfl
  | cons e es ih => rw [run_cons, ih, hstep, run_cons]

theorem history_map (hstep : ∀ s e, f (step s e) = step' (f s) e)
    (hlabel : ∀ s e, label s e = label' (f s) e) (s : σ) (es : List ι) :
    history step label s es = history step' label' (f s) es := by
  induction es generalizing s with
  | nil => rfl
  | cons e es ih => rw [history_cons, ih, hlabel, hstep, history_cons]

end Map

/-! ### Leaving out inputs that do nothing -/

section Project

variable {κ : Type x} {β : Type y} {step : σ → ι → σ} {label : σ → ι → List α}
  {step' : σ → κ → σ} {label' : σ → κ → List β} {p : ι → Option κ} {q : α → Option β}

theorem run_project (idle : ∀ s e, p e = none → step s e = s)
    (busy : ∀ s e k, p e = some k → step s e = step' s k) (s : σ) (es : List ι) :
    run step s es = run step' s (es.filterMap p) := by
  induction es generalizing s with
  | nil => rfl
  | cons e es ih =>
    rw [run_cons, ih]
    cases hp : p e with
    | none => rw [List.filterMap_cons_none hp, idle s e hp]
    | some k => rw [List.filterMap_cons_some hp, run_cons, busy s e k hp]

/-- The outputs kept by `q` are those of the inputs kept by `p`. -/
theorem history_project (idle : ∀ s e, p e = none → step s e = s)
    (busy : ∀ s e k, p e = some k → step s e = step' s k)
    (mute : ∀ s e, p e = none → (label s e).filterMap q = [])
    (speak : ∀ s e k, p e = some k → (label s e).filterMap q = label' s k)
    (s : σ) (es : List ι) :
    (history step label s es).filterMap q = history step' label' s (es.filterMap p) := by
  induction es generalizing s with
  | nil => rfl
  | cons e es ih =>
    rw [history_cons, List.filterMap_append, ih]
    cases hp : p e with
    | none => rw [List.filterMap_cons_none hp, mute s e hp, idle s e hp, List.nil_append]
    | some k => rw [List.filterMap_cons_some hp, history_cons, speak s e k hp, busy s e k hp]

end Project

/-! ### Inputs that do nothing for the moment -/

section Quiet

variable {κ : Type x} {step : σ → ι → σ} {label : σ → ι → List α} {step' : σ → κ → σ}
  {p : ι → Option κ} {quiet : σ → Prop}

/-- Every state of a run, the first and the last included. -/
def Throughout (quiet : σ → Prop) (step : σ → ι → σ) : σ → List ι → Prop
  | s, [] => quiet s
  | s, e :: es => quiet s ∧ Throughout quiet step (step s e) es

instance decidableThroughout [DecidablePred quiet] :
    ∀ (s : σ) (es : List ι), Decidable (Throughout quiet step s es)
  | s, [] => inferInstanceAs (Decidable (quiet s))
  | s, e :: es =>
      have : Decidable (Throughout quiet step (step s e) es) := decidableThroughout (step s e) es
      inferInstanceAs (Decidable (quiet s ∧ Throughout quiet step (step s e) es))

theorem Throughout.head {s : σ} {es : List ι} (h : Throughout quiet step s es) : quiet s := by
  cases es with
  | nil => exact h
  | cons e es => exact h.1

theorem Throughout.append {s : σ} {es fs : List ι} (hes : Throughout quiet step s es)
    (hfs : Throughout quiet step (run step s es) fs) : Throughout quiet step s (es ++ fs) := by
  induction es generalizing s with
  | nil => exact hfs
  | cons e es ih => exact ⟨hes.1, ih hes.2 hfs⟩

/-- What a part of the state goes through. -/
theorem Throughout.comap {τ : Type y} {act : τ → ι → τ} (f : σ → τ) {calm : τ → Prop}
    (hstep : ∀ s e, f (step s e) = act (f s) e) {s : σ} {es : List ι}
    (h : Throughout calm act (f s) es) : Throughout (fun s => calm (f s)) step s es := by
  induction es generalizing s with
  | nil => exact h
  | cons e es ih => exact ⟨h.1, ih (by rw [hstep]; exact h.2)⟩

/-- **Inputs that do nothing in any state of the run** can be left out of it,
wherever they stand. -/
theorem run_of_throughout {s : σ} {es : List ι}
    (idle : ∀ s, ∀ e ∈ es, quiet s → p e = none → step s e = s ∧ label s e = [])
    (busy : ∀ s e k, p e = some k → step s e = step' s k ∧ label s e = [])
    (h : Throughout quiet step' s (es.filterMap p)) :
    run step s es = run step' s (es.filterMap p) ∧ history step label s es = [] := by
  induction es generalizing s with
  | nil => exact ⟨rfl, rfl⟩
  | cons e es ih =>
    have hrest := fun s e he => idle s e (List.mem_cons_of_mem _ he)
    rw [run_cons, history_cons]
    cases hp : p e with
    | none =>
      rw [List.filterMap_cons_none hp] at h ⊢
      obtain ⟨hstep, hlabel⟩ := idle s e (List.mem_cons_self ..) h.head hp
      rw [hstep, hlabel]
      exact ih hrest h
    | some k =>
      rw [List.filterMap_cons_some hp] at h ⊢
      obtain ⟨hstep, hlabel⟩ := busy s e k hp
      rw [hstep, hlabel]
      exact ih hrest h.2

end Quiet

end Labelled
