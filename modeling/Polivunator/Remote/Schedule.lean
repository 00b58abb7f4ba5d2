import Polivunator.Keypad.Navigation
import Polivunator.Keypad.Repeat
import Polivunator.Remote.Heard
import Polivunator.Remote.Machine

/-!
# From light to a schedule

The whole way once more, for one task: on the home page somebody takes the remote
control, goes to the page of a bed and types a time.  `run_typed` is what
becomes of the buttons if no message comes in between, and `light_sets_schedule`
starts at the light that reaches the receiver.
-/

namespace Polivunator.Remote

open Labelled Irparams Keypad

/-- The button of a digit. -/
def digitKey (d : Nat) : Nat :=
  [key0, key1, key2, key3, key4, key5, key6, key7, key8, key9].getD d key0

theorem digitOf_digitKey {d : Nat} (h : d < 10) : digitOf (digitKey d) = some d := by
  have hall : ∀ d < 10, digitOf (digitKey d) = some d := by decide
  exact hall d h

/-- The buttons that type a time for a bed, from the home page on. -/
def buttonsFor (k : Bed) (t : Time) : List Nat :=
  (Place.typing k).fromHome ++ t.digits.map digitKey

/-! ### Events that change no schedule -/

/-- Without a code and a message the schedules stay. -/
theorem step_schedules {s : State} {e : Event} (hir : e.ir? = none) (hsms : ∀ str, e ≠ .sms str) :
    (step s e).timeSetupSettings = s.timeSetupSettings := by
  cases e with
  | ir value => simp [Event.ir?] at hir
  | sms str => exact absurd rfl (hsms str)
  | clock gettime => funext k; cases k <;> rfl
  | menu =>
    rw [step, menu_eq]
    funext k; cases k <;> rfl
  | temperature readHumidity readTemperature =>
    rw [step, readTemperatureBlock_eq]
    funext k; cases k <;> rfl
  | poliv =>
    rw [step, readPolivBlock_eq]
    funext k; cases k <;> rfl

/-- While the buttons only lead from page to page the schedules stay. -/
theorem run_schedules_of_navigating {s : State} {p : Place} {es : List Event} (h : Showing s p)
    (hsms : ∀ str, .sms str ∉ es)
    (hclosed : Throughout (fun p => ∀ k, p ≠ Place.typing k) Place.move p
      (es.filterMap Event.ir?)) :
    (run step s es).timeSetupSettings = s.timeSetupSettings := by
  induction es generalizing s p with
  | nil => rfl
  | cons e es ih =>
    have hrest := fun str hmem => hsms str (List.mem_cons_of_mem e hmem)
    have hnext := step_showing h e
    cases he : e.ir? with
    | none =>
      have hne : ∀ str, e ≠ .sms str := fun str he => hsms str (by rw [he]; exact List.mem_cons_self ..)
      rw [he] at hnext
      rw [List.filterMap_cons_none he] at hclosed
      rw [run_cons, ih hnext hrest hclosed, step_schedules he hne]
    | some value =>
      obtain rfl : e = .ir value := by
        cases e <;> simp [Event.ir?] at he
        rw [he]
      rw [List.filterMap_cons_some he] at hclosed
      have hpage : s.menuLcd ≠ .menuSetParameters := by
        rw [h.page]
        have hne := hclosed.1
        cases p with
        | typing k => exact absurd rfl (hne k)
        | bed k => exact k.menuPoliv_ne
        | info k => cases k <;> decide
        | _ => decide
      have hsame : (step s (.ir value)).timeSetupSettings = s.timeSetupSettings :=
        congrArg (fun x => x.2.2) (draft_unkeyed.key_of_closed hpage value)
      rw [he] at hnext
      rw [run_cons, ih hnext hrest hclosed.2, hsame]

/-! ### Typing -/

/-- **Up to four digits**: the fourth stores them, and nothing else is stored. -/
theorem opened_schedules_of_le {es₁ es₂ : List Event} {k : Bed} (h : Opened es₁ k es₂)
    (hsms : ∀ str, .sms str ∉ es₂) (hlen : (entered es₁ es₂).length ≤ 4) (j : Bed) :
    (onPage es₁ es₂).timeSetupSettings j =
      if j = k ∧ (entered es₁ es₂).length = 4 then typed (entered es₁ es₂)
      else (onPage es₁ []).timeSetupSettings j := by
  induction es₂ using List.reverseRecOn with
  | nil =>
    have hzero : ¬ (j = k ∧ (entered es₁ []).length = 4) := fun hc => by simp [entered] at hc
    rw [if_neg hzero]
  | append_singleton es₂ e ih =>
    have hpre := h.pre
    rw [entered_snoc, List.length_append] at hlen
    have hrest := ih hpre (fun str hmem => hsms str (List.mem_append_left _ hmem)) (by omega)
    have hne : ∀ str, e ≠ .sms str := fun str he => hsms str (by rw [he]; simp)
    cases he : e.ir? with
    | none =>
      have htaken : taken (onPage es₁ es₂) e = [] := by
        cases e <;> first | rfl | simp [Event.ir?] at he
      rw [entered_snoc, htaken, List.append_nil, onPage_snoc, step_schedules he hne, hrest]
    | some value =>
      obtain rfl : e = .ir value := by
        cases e <;> simp [Event.ir?] at he
        rw [he]
      rw [opened_schedules hpre, entered_snoc, hrest, List.length_append]
      have hone := length_taken_le (onPage es₁ es₂) (.ir value)
      rcases Nat.eq_zero_or_pos (taken (onPage es₁ es₂) (.ir value)).length with hzero | hpos
      · have hnil := List.eq_nil_of_length_eq_zero hzero
        rw [hnil, if_neg (fun hc => hc.1 rfl), List.append_nil, List.length_nil, Nat.add_zero]
      · have hsome := List.length_pos_iff.mp hpos
        by_cases hc : j = k ∧ (entered es₁ es₂).length = 3
        · rw [if_pos ⟨hsome, by omega, hc.1⟩, if_pos ⟨hc.1, by omega⟩]
        · have hnot : ¬ (j = k ∧ (entered es₁ es₂).length = 4) := fun hc' => by omega
          rw [if_neg (fun hc' => hc ⟨hc'.2.2, by omega⟩), if_neg hnot,
            if_neg (fun hc' => hc ⟨hc'.1, by omega⟩)]

/-- The rule takes the digits of a time. -/
theorem acceptedOf_digits (t : Time) : acceptedOf t.digits = t.digits := by
  have hcompletable : ∀ ds es, t.digits = ds ++ es → Completable ds :=
    fun ds es hsplit => ⟨t, es, hsplit.symm⟩
  have hone : ∀ ds d es, t.digits = ds ++ d :: es → Keypad.Accepts ds d := by
    intro ds d es hsplit
    have hlen : ds.length < 4 := by
      have hfour : t.digits.length = 4 := rfl
      rw [hsplit, List.length_append, List.length_cons] at hfour
      omega
    exact (accepts_iff_completable hlen (hcompletable ds _ hsplit) d).mpr
      (hcompletable (ds ++ [d]) es (by rw [hsplit, List.append_assoc]; rfl))
  have hall : ∀ ds es, t.digits = ds ++ es →
      es.foldl (fun ds d => if Keypad.Accepts ds d then ds ++ [d] else ds) ds = ds ++ es := by
    intro ds es hsplit
    induction es generalizing ds with
    | nil => exact (List.append_nil ds).symm
    | cons d es ih =>
      rw [List.foldl_cons, if_pos (hone ds d es hsplit), ih (ds ++ [d]) (by
        rw [hsplit, List.append_assoc]; rfl), List.append_assoc]
      rfl
  exact hall [] t.digits rfl

theorem filterMap_pressed (es : List Event) :
    es.filterMap pressed = (es.filterMap Event.ir?).filterMap digitOf := by
  rw [List.filterMap_filterMap]
  refine List.filterMap_congr fun e _ => ?_
  cases e <;> rfl

theorem digits_lt (t : Time) : ∀ d ∈ t.digits, d < 10 := by
  have hh := t.hour_lt
  have hm := t.minute_lt
  simp only [Time.digits, List.mem_cons, List.not_mem_nil, or_false]
  omega

/-- **The page of a schedule**, opened for a bed: the digits of a time store it. -/
theorem run_digits {es₁ es₂ : List Event} {k : Bed} (hpage : (after es₁).menuLcd = k.menuPoliv)
    (hsms : ∀ str, .sms str ∉ es₂) {t : Time}
    (hir : es₂.filterMap Event.ir? = t.digits.map digitKey) (j : Bed) :
    (onPage es₁ es₂).timeSetupSettings j =
      if j = k then t.text else (after es₁).timeSetupSettings j := by
  have hleft : .ir keyLeft ∉ es₂ := by
    intro hmem
    have hkey : keyLeft ∈ t.digits.map digitKey := by
      rw [← hir]
      exact List.mem_filterMap.mpr ⟨_, hmem, rfl⟩
    obtain ⟨d, hd, heq⟩ := List.mem_map.mp hkey
    have hdigit := digitOf_digitKey (digits_lt t d hd)
    rw [heq] at hdigit
    have hnone : digitOf keyLeft = none := by decide
    rw [hnone] at hdigit
    cases hdigit
  have hopened := opened_of_not_left hpage hleft
  have hdigits : (t.digits.map digitKey).filterMap digitOf = t.digits := by
    rw [List.filterMap_map]
    have hall := List.filterMap_congr (f := digitOf ∘ digitKey) (g := some)
      (fun d hd => digitOf_digitKey (digits_lt t d hd))
    rw [hall, List.filterMap_some]
  have hentered : entered es₁ es₂ = t.digits := by
    rw [entered_eq hopened, filterMap_pressed, hir, hdigits, acceptedOf_digits]
  have hopen : (onPage es₁ []).timeSetupSettings j = (after es₁).timeSetupSettings j := by
    rw [onPage, after, run_snoc, ← after, step, key_opens hpage]
    cases j <;> rfl
  rw [opened_schedules_of_le hopened hsms (by rw [hentered]; exact Nat.le_refl 4), hentered, hopen,
    typed_digits]
  have hfour : t.digits.length = 4 := rfl
  simp only [hfour, and_true]

/-- **The buttons for a time set the schedule**, and only that of their bed. -/
theorem run_typed {es₀ es : List Event} {k : Bed} {t : Time}
    (hhome : (after es₀).menuLcd = .menuHome) (hsms : ∀ str, .sms str ∉ es)
    (hir : es.filterMap Event.ir? = buttonsFor k t) (j : Bed) :
    (after (es₀ ++ es)).timeSetupSettings j =
      if j = k then t.text else (after es₀).timeSetupSettings j := by
  have hpath : buttonsFor k t = (Place.bed k).fromHome ++ keyOk :: t.digits.map digitKey := by
    cases k <;> rfl
  -- the way to the page of the bed, `OK`, and the digits
  rw [hpath] at hir
  obtain ⟨way, rest, rfl, hway, hrest⟩ := List.filterMap_eq_append_iff.mp hir
  obtain ⟨quiet, e, es₂, rfl, hquiet, he, hes₂⟩ := List.filterMap_eq_cons_iff.mp hrest
  obtain rfl : e = .ir keyOk := by
    cases e <;> simp [Event.ir?] at he
    rw [he]
  have hnavigation : (way ++ quiet).filterMap Event.ir? = (Place.bed k).fromHome := by
    rw [List.filterMap_append, hway, List.filterMap_eq_nil_iff.mpr hquiet, List.append_nil]
  have hhomeShowing : Showing (after es₀) .home := ⟨hhome, fun k hk => by simp at hk⟩
  have harrived := run_showing hhomeShowing (way ++ quiet)
  rw [hnavigation, Place.run_fromHome] at harrived
  have hpage : (after (es₀ ++ (way ++ quiet))).menuLcd = k.menuPoliv := by
    rw [after, run_append]
    exact harrived.page
  have hclosed : Throughout (fun p => ∀ k, p ≠ Place.typing k) Place.move .home
      ((way ++ quiet).filterMap Event.ir?) := by
    rw [hnavigation]
    cases k <;> decide
  have hbefore : (after (es₀ ++ (way ++ quiet))).timeSetupSettings =
      (after es₀).timeSetupSettings := by
    rw [after, run_append]
    refine run_schedules_of_navigating hhomeShowing (fun str hmem => hsms str ?_) hclosed
    rw [← List.append_assoc]
    exact List.mem_append_left _ hmem
  have hsms' : ∀ str, .sms str ∉ es₂ := fun str hmem =>
    hsms str (List.mem_append_right _ (List.mem_append_right _ (List.mem_cons_of_mem _ hmem)))
  have hsplit : es₀ ++ (way ++ (quiet ++ .ir keyOk :: es₂)) =
      (es₀ ++ (way ++ quiet)) ++ .ir keyOk :: es₂ := by simp
  rw [hsplit, ← hbefore]
  exact run_digits hpage hsms' hes₂ j

/-! ### Signals of buttons -/

/-- The signals of some buttons, each asked for once. -/
def pressing (values : List Nat) : List Turn :=
  values.map fun value => Turn.asked (Signal.sent (BitVec.ofNat 32 value) false) 1 1 1

theorem pressing_gaps (values : List Nat) : ∀ t ∈ (pressing values).dropLast, Gap t.spaces := by
  intro t ht
  obtain ⟨value, -, rfl⟩ := List.mem_map.mp (List.mem_of_mem_dropLast ht)
  show Gap (101 + 1 + 1 + 1)
  decide

/-- Nothing but the signals of these buttons. -/
def onlyPressing (values : List Nat) : List Act :=
  ((pressing values).flatMap Turn.moments).map Act.moment

theorem onlyPressing_moments (values : List Nat) :
    (onlyPressing values).filterMap Act.moment? = (pressing values).flatMap Turn.moments := by
  rw [onlyPressing, List.filterMap_map]
  exact List.filterMap_some

/-- **Every signal of a button is one press of it**, whatever the loop does
meanwhile, as long as it fetches each signal and calls `resume` once before the
next one, and the timer, modulo 2 ^ 16, finds a gap before each.  A signal whose
code is no button does nothing, and the page on the display is where the buttons
lead. -/
theorem remote_refines (others : DecodeResults → Bool × DecodeResults) {k : Machine} {p : Place}
    {turns : List Turn} {acts : List Act} {n : Nat} (hplace : Showing k.state p)
    (h : Waiting n k.irrecv.irparams) (hgap : Gap n)
    (hgaps : ∀ t ∈ turns.dropLast, Gap t.spaces)
    (hturns : acts.filterMap Act.moment? = turns.flatMap Turn.moments)
    (hacts : ∀ e, .event e ∈ acts → e.ir? = none) :
    Showing (run (Machine.step others) k acts).state
        (run Place.move p ((turns.map (fun t => t.signal.code.toNat)).filter
          (fun value => decide (value ∈ buttons)))) ∧
      ∃ es, Alike (run (Machine.step others) k acts).state (run step k.state es) ∧
        es.filterMap Event.ir? = (turns.map (fun t => t.signal.code.toNat)).filter
          (fun value => decide (value ∈ buttons)) ∧
        es.filter (fun e => e.ir?.isNone) = acts.filterMap Act.event? := by
  obtain ⟨es, halike, hir, hloop⟩ := exists_events others h hgap hgaps hturns hacts
  have hend := run_showing hplace es
  rw [hir] at hend
  exact ⟨hend.congr halike.symm.entry, es, halike, hir, hloop⟩

theorem remote_refines_one :
    Showing (run (Machine.step (fun r => (false, r))) ⟨Irrecv.rested, setup⟩
      (onlyPressing [keyRight, keyOk])).state .light :=
  (remote_refines (fun r => (false, r)) (k := ⟨Irrecv.rested, setup⟩) setup_showing
    Irrecv.rested_waiting (by decide) (pressing_gaps _) (onlyPressing_moments _)
    (by simp [onlyPressing])).1

/-- **From light to a schedule.**  Somebody on the home page presses the buttons
for a time: if the loop fetches each signal and calls `resume` once before the
next one, the timer, modulo 2 ^ 16, finds a gap before each, and no message comes
in meanwhile, then the schedule of the bed is that time in the end, and the other
schedules are what they were.  Repetitions and other codes in between do not
matter. -/
theorem light_sets_schedule (others : DecodeResults → Bool × DecodeResults) {es₀ : List Event}
    {k : Machine} {turns : List Turn} {acts : List Act} {n : Nat}
    (hstate : k.state = after es₀) (hhome : k.state.menuLcd = .menuHome)
    (h : Waiting n k.irrecv.irparams) (hgap : Gap n)
    (hgaps : ∀ t ∈ turns.dropLast, Gap t.spaces)
    (hturns : acts.filterMap Act.moment? = turns.flatMap Turn.moments)
    (hacts : ∀ e, .event e ∈ acts → e.ir? = none) (hsms : ∀ str, .event (.sms str) ∉ acts)
    {bed : Bed} {t : Time}
    (hcodes : (turns.map (fun t => t.signal.code.toNat)).filter
      (fun value => decide (value ∈ buttons)) = buttonsFor bed t) (j : Bed) :
    (run (Machine.step others) k acts).state.timeSetupSettings j =
      if j = bed then t.text else k.state.timeSetupSettings j := by
  obtain ⟨es, halike, hir, hloop⟩ := exists_events others h hgap hgaps hturns hacts
  rw [hstate] at hhome halike ⊢
  rw [← halike.timeSetupSettings, after, ← run_append, ← after]
  refine run_typed hhome ?_ (hir.trans hcodes) j
  intro str hmem
  have hfilter : .sms str ∈ es.filter (fun e => e.ir?.isNone) :=
    List.mem_filter.mpr ⟨hmem, rfl⟩
  rw [hloop, List.mem_filterMap] at hfilter
  obtain ⟨a, ha, hevent⟩ := hfilter
  cases a with
  | moment m => cases hevent
  | event e =>
    obtain rfl := Option.some.inj hevent
    exact hsms str ha

theorem light_sets_schedule_one :
    (run (Machine.step (fun r => (false, r))) ⟨Irrecv.rested, setup⟩
      (onlyPressing (buttonsFor .bed1 ⟨9, 30, by decide, by decide⟩))).state.timeSetupSettings
        .bed1 = "09:30".toList :=
  (light_sets_schedule (fun r => (false, r)) (k := ⟨Irrecv.rested, setup⟩)
    (show setup = after [] from rfl) rfl Irrecv.rested_waiting (by decide) (pressing_gaps _)
    (onlyPressing_moments _) (by simp [onlyPressing]) (by simp [onlyPressing])
    (show _ = buttonsFor .bed1 ⟨9, 30, by decide, by decide⟩ by decide) .bed1).trans (by decide)

end Polivunator.Remote
