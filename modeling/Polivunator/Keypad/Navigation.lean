import Polivunator.Keypad.Transaction
import Polivunator.Sketch.Unseen

/-!
# Finding a way through the pages

A `Place` is what the user sees himself on: the home page, the settings, the
page of a bed, or the page where its schedule is typed.  `links` is the map, the
buttons that lead away from a place with the places they lead to.

`run_showing` says that the page on the display is where these buttons lead, in
every run.  `finds_way` is about the map: from any place there are eight buttons
at most that lead to any other, so the menu has no dead end.
-/

namespace Polivunator.Keypad

open Labelled

/-- Where the menu is. -/
inductive Place
  | home
  | setup
  | light
  | bed (k : Bed)
  | info (k : Bed)
  | typing (k : Bed)
  deriving DecidableEq

namespace Place

/-- Its page. -/
def page : Place → Page
  | home => .menuHome
  | setup => .menuSetup
  | light => .menuLcdBriglight
  | bed k => k.menuPoliv
  | info .bed1 => .menuInfoPoliv1
  | info .bed2 => .menuInfoPoliv2
  | info .bed3 => .menuInfoPoliv3
  | typing _ => .menuSetParameters

/-- The buttons that lead away from it.  Typing a schedule, the button of the home
page is a digit. -/
def links : Place → List (Nat × Place)
  | home => [(keyLeft, info .bed1), (keyRight, setup)]
  | setup => [(key0, home), (keyLeft, home), (keyOk, light)]
  | light => [(key0, home), (keyLeft, setup), (keyDown, bed .bed1)]
  | bed .bed1 =>
      [(key0, home), (keyOk, typing .bed1), (keyLeft, setup), (keyDown, bed .bed2), (keyUp, light)]
  | bed .bed2 =>
      [(key0, home), (keyOk, typing .bed2), (keyLeft, setup), (keyDown, bed .bed3),
        (keyUp, bed .bed1)]
  | bed .bed3 => [(key0, home), (keyOk, typing .bed3), (keyLeft, setup), (keyUp, bed .bed2)]
  | info .bed1 => [(key0, home), (keyRight, home), (keyDown, info .bed2)]
  | info .bed2 => [(key0, home), (keyRight, home), (keyDown, info .bed3), (keyUp, info .bed1)]
  | info .bed3 => [(key0, home), (keyRight, home), (keyUp, info .bed2)]
  | typing k => [(keyLeft, bed k)]

/-- Where a button leads. -/
def move (p : Place) (value : Nat) : Place :=
  p.links.foldr (fun link q => if value = link.1 then link.2 else q) p

theorem move_page (p : Place) (value : Nat) :
    (p.move value).page =
      p.links.foldr (fun link page => if value = link.1 then link.2.page else page) p.page := by
  have hfold : ∀ links : List (Nat × Place),
      (links.foldr (fun link q => if value = link.1 then link.2 else q) p).page =
        links.foldr (fun link page => if value = link.1 then link.2.page else page) p.page := by
    intro links
    induction links with
    | nil => rfl
    | cons link links ih => rw [List.foldr_cons, apply_ite Place.page, ih, List.foldr_cons]
  exact hfold p.links

/-- All places. -/
def all : List Place :=
  [home, setup, light, bed .bed1, bed .bed2, bed .bed3, info .bed1, info .bed2, info .bed3,
    typing .bed1, typing .bed2, typing .bed3]

theorem mem_all (p : Place) : p ∈ all := by
  cases p with
  | bed k => cases k <;> decide
  | info k => cases k <;> decide
  | typing k => cases k <;> decide
  | _ => decide

end Place

/-! ### The globals show a place -/

/-- The page is that of the place, and a schedule is typed for the bed it is
about. -/
structure Showing (s : State) (p : Place) : Prop where
  page : s.menuLcd = p.page
  bed : ∀ k, p = .typing k → s.setParameters = k.menuPoliv

theorem Showing.congr {s t : State} {p : Place} (h : Showing s p) (he : t.entry = s.entry) :
    Showing t p := by
  obtain ⟨hpage, hbed, -, -⟩ := entry_eq_iff.mp he
  exact ⟨hpage.trans h.page, fun k hk => hbed.trans (h.bed k hk)⟩

theorem goTo_menuLcd (value button : Nat) (page : Page) (s : State) :
    (goTo value button page s).menuLcd = if value = button then page else s.menuLcd := by
  unfold goTo
  split_ifs <;> rfl

theorem openSetParameters_menuLcd (value : Nat) (k : Bed) (s : State) :
    (openSetParameters value k s).menuLcd =
      if value = keyOk then .menuSetParameters else s.menuLcd := by
  unfold openSetParameters
  split_ifs <;> rfl

theorem keyHome_menuLcd (value : Nat) (s : State) :
    (keyHome value s).menuLcd =
      if value = keyLeft then .menuInfoPoliv1
      else if value = keyRight then .menuSetup else s.menuLcd := by
  have hbutton : ∀ (button : Nat) (k : Bed) (s : State),
      (if value = button then toggle k s else s).menuLcd = s.menuLcd := by
    intro button k s
    split_ifs
    · unfold toggle
      cases k <;> split_ifs <;> rfl
    · rfl
  simp only [keyHome, goTo_menuLcd, hbutton]

theorem keyLcdBriglight_menuLcd {s : State} (h : s.menuLcd = .menuLcdBriglight) (value : Nat) :
    (keyLcdBriglight value s).menuLcd =
      if value = keyLeft then .menuSetup
      else if value = keyDown then .menuPoliv1 else .menuLcdBriglight := by
  simp only [keyLcdBriglight, goTo_menuLcd]
  split_ifs <;> first | rfl | exact h

theorem keyAny_menuLcd (value : Nat) (s : State) :
    (keyAny value s).menuLcd =
      if value = key0 ∧ s.menuLcd ≠ .menuSetParameters then .menuHome else s.menuLcd := by
  have hr : ∀ s : State, (if value = keyR then allOff s else s).menuLcd = s.menuLcd := by
    intro s
    split_ifs <;> rfl
  have hz : ∀ s : State, (if value = keyZ then allOn s else s).menuLcd = s.menuLcd := by
    intro s
    split_ifs <;> rfl
  simp only [keyAny, hr, hz]
  split_ifs <;> first | rfl | simp_all

/-- **One code**, off the page where schedules are typed. -/
theorem key_page {s : State} {p : Place} (h : s.menuLcd = p.page) (hp : ∀ k, p ≠ .typing k)
    (value : Nat) : (key (some value) s).menuLcd = (p.move value).page := by
  have hdistinct : key0 ≠ keyOk ∧ key0 ≠ keyLeft ∧ key0 ≠ keyRight := by decide
  obtain ⟨hok, hleft, hright⟩ := hdistinct
  show (keyAny value (keyPage value s)).menuLcd = _
  rw [keyAny_menuLcd, Place.move_page]
  unfold keyPage
  rw [h]
  cases p with
  | home =>
    simp only [Place.page, keyHome_menuLcd, Place.links, List.foldr_cons, List.foldr_nil, h]
    split_ifs <;> simp_all
  | setup =>
    simp only [Place.page, keySetup, goTo_menuLcd, Place.links, List.foldr_cons, List.foldr_nil, h]
    split_ifs <;> simp_all
  | light =>
    simp only [Place.page, keyLcdBriglight_menuLcd h, Place.links, List.foldr_cons, List.foldr_nil,
      Bed.menuPoliv]
    split_ifs <;> simp_all
  | bed k =>
    cases k
    all_goals
      simp only [Place.page, Bed.menuPoliv, keyPoliv1, keyPoliv2, keyPoliv3, goTo_menuLcd,
        openSetParameters_menuLcd, Place.links, List.foldr_cons, List.foldr_nil, h]
      split_ifs <;> simp_all
  | info k =>
    cases k
    all_goals
      simp only [Place.page, keyInfoPoliv1, keyInfoPoliv2, keyInfoPoliv3, goTo_menuLcd, Place.links,
        List.foldr_cons, List.foldr_nil, h]
      split_ifs <;> simp_all
  | typing k => exact absurd rfl (hp k)

/-- Only `OK` on the page of a bed leads to typing its schedule. -/
theorem move_eq_typing {p : Place} {value : Nat} {k : Bed} (h : p.move value = .typing k)
    (hp : ∀ k, p ≠ .typing k) : p = .bed k ∧ value = keyOk := by
  cases p with
  | typing j => exact absurd rfl (hp j)
  | bed j =>
    cases j
    all_goals
      simp only [Place.move, Place.links, List.foldr_cons, List.foldr_nil] at h
      split_ifs at h
      simp_all
  | info j =>
    cases j
    all_goals
      simp only [Place.move, Place.links, List.foldr_cons, List.foldr_nil] at h
      split_ifs at h
  | _ =>
    simp only [Place.move, Place.links, List.foldr_cons, List.foldr_nil] at h
    split_ifs at h

/-- **One code**, on the page where schedules are typed. -/
theorem key_showing_typing {s : State} {k : Bed} (h : Showing s (.typing k)) (value : Nat) :
    Showing (key (some value) s) ((Place.typing k).move value) := by
  have hmove : (Place.typing k).move value = if value = keyLeft then .bed k else .typing k := rfl
  have hbed := h.bed k rfl
  rw [hmove]
  by_cases hl : value = keyLeft
  · subst hl
    rw [if_pos rfl, key_of_left h.page]
    exact ⟨hbed, fun j hj => by simp at hj⟩
  · rw [if_neg hl]
    cases hd : digitOf value with
    | none => exact h.congr (key_of_other h.page hd hl).1
    | some d =>
      rw [key_of_digit h.page hd, setTime_eq]
      exact ⟨h.page, fun j hj => h.bed j hj⟩

/-- **One code.** -/
theorem key_showing {s : State} {p : Place} (h : Showing s p) (value : Nat) :
    Showing (key (some value) s) (p.move value) := by
  by_cases hp : ∃ k, p = .typing k
  · obtain ⟨k, rfl⟩ := hp
    exact key_showing_typing h value
  · have hne : ∀ k, p ≠ .typing k := fun k hk => hp ⟨k, hk⟩
    refine ⟨key_page h.page hne value, fun k hk => ?_⟩
    obtain ⟨rfl, rfl⟩ := move_eq_typing hk hne
    rw [key_opens h.page]

/-- What happens is a code or leaves the place. -/
theorem step_showing {s : State} {p : Place} (h : Showing s p) (e : Event) :
    Showing (step s e) (run Place.move p e.ir?.toList) := by
  cases e with
  | ir value => exact key_showing h value
  | clock gettime => exact h.congr (step_entry s (.clock gettime) (fun _ => by simp))
  | menu => exact h.congr (step_entry s .menu (fun _ => by simp))
  | sms str => exact h.congr (step_entry s (.sms str) (fun _ => by simp))
  | temperature readHumidity readTemperature =>
    exact h.congr (step_entry s (.temperature readHumidity readTemperature) (fun _ => by simp))
  | poliv => exact h.congr (step_entry s .poliv (fun _ => by simp))

/-- **The page is where the buttons lead**, in every run. -/
theorem run_showing {s : State} {p : Place} (h : Showing s p) (es : List Event) :
    Showing (run step s es) (run Place.move p (es.filterMap Event.ir?)) := by
  induction es generalizing s p with
  | nil => exact h
  | cons e es ih =>
    have hstep := ih (step_showing h e)
    rw [run_cons]
    cases he : e.ir? with
    | none =>
      rw [he] at hstep
      rw [List.filterMap_cons_none he]
      exact hstep
    | some value =>
      rw [he] at hstep
      rw [List.filterMap_cons_some he, run_cons]
      exact hstep

theorem setup_showing : Showing setup .home := ⟨rfl, fun k hk => by simp at hk⟩

/-! ### The map -/

namespace Place

/-- Some buttons back to the home page. -/
def toHome : Place → List Nat
  | home => []
  | typing _ => [keyLeft, key0]
  | _ => [key0]

/-- Some buttons from the home page. -/
def fromHome : Place → List Nat
  | home => []
  | setup => [keyRight]
  | light => [keyRight, keyOk]
  | bed .bed1 => [keyRight, keyOk, keyDown]
  | bed .bed2 => [keyRight, keyOk, keyDown, keyDown]
  | bed .bed3 => [keyRight, keyOk, keyDown, keyDown, keyDown]
  | info .bed1 => [keyLeft]
  | info .bed2 => [keyLeft, keyDown]
  | info .bed3 => [keyLeft, keyDown, keyDown]
  | typing .bed1 => [keyRight, keyOk, keyDown, keyOk]
  | typing .bed2 => [keyRight, keyOk, keyDown, keyDown, keyOk]
  | typing .bed3 => [keyRight, keyOk, keyDown, keyDown, keyDown, keyOk]

theorem run_toHome (p : Place) : run move p p.toHome = home := by
  have hall : ∀ p ∈ all, run move p p.toHome = home := by decide
  exact hall p p.mem_all

theorem run_fromHome (p : Place) : run move home p.fromHome = p := by
  have hall : ∀ p ∈ all, run move home p.fromHome = p := by decide
  exact hall p p.mem_all

theorem length_path (p q : Place) : (p.toHome ++ q.fromHome).length ≤ 8 := by
  have hto : ∀ p ∈ all, p.toHome.length ≤ 2 := by decide
  have hfrom : ∀ p ∈ all, p.fromHome.length ≤ 6 := by decide
  rw [List.length_append]
  exact Nat.add_le_add (hto p p.mem_all) (hfrom q q.mem_all)

end Place

/-- **There is no dead end.**  The page on the display is where the buttons have
led, whatever else has happened, and from there eight buttons at most lead to any
place, whatever else happens while they are pressed. -/
theorem finds_way (es : List Event) :
    Showing (after es) (run Place.move .home (es.filterMap Event.ir?)) ∧
      ∀ q : Place, ∃ values : List Nat, values.length ≤ 8 ∧ ∀ es' : List Event,
        es'.filterMap Event.ir? = values → Showing (after (es ++ es')) q := by
  have hplace := run_showing setup_showing es
  refine ⟨hplace, fun q => ⟨(run Place.move .home (es.filterMap Event.ir?)).toHome ++ q.fromHome,
    Place.length_path _ q, fun es' hes' => ?_⟩⟩
  have hend := run_showing hplace es'
  rw [hes', run_append, Place.run_toHome, Place.run_fromHome] at hend
  rw [after, run_append]
  exact hend

end Polivunator.Keypad
