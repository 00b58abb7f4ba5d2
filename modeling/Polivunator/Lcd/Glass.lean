import Polivunator.Display.Fresh
import Polivunator.Lcd.Renders

/-!
# The glass

The calls of the sketch, as the display gets them.  `page` is what a terminal
with letters of its own would show after some calls, and `Drawable` are those
that need no more than the letters of an alphabet, stay in their lines and set
the cursor between a `clear` and the next text.  The library does not notice that
`clear` has moved the cursor: it would put the first drawn letter after a `clear`
where the cursor was before.

`glass_run` is for every list of calls after the start: if what has been sent
since the last `clear` is drawable with seven letters, then every place of the
display shows what it should.
-/

namespace Polivunator.Lcd

open Labelled Hd44780 Display

/-- What a call of the sketch does. -/
def call (l : Lcd1602Rus) : LcdCall → Lcd1602Rus
  | .begin => { l with liquid := l.liquid.begin }
  | .clear => l.clear
  | .setCursor col row => l.setCursor (UInt8.ofNat col) (UInt8.ofNat row)
  | .print text => l.print (utf8 text)
  | .backlight => { l with liquid := l.liquid.backlight }
  | .noBacklight => { l with liquid := l.liquid.noBacklight }

/-- The `lcd` of the sketch, with a display of which nothing is known. -/
def lcd (p : Port) : Lcd1602Rus := .new 2 p

/-! ### Calls that can be drawn -/

/-- What a call does to a terminal. -/
def paint (t : Terminal) : LcdCall → Terminal
  | .clear => .blank
  | .setCursor col row => t.goto (row * 64 + col)
  | .print text => text.foldl (fun t x => t.put (look x.toNat)) t
  | _ => t

/-- What is to be seen after some calls. -/
def page (cs : List LcdCall) : Terminal := run paint .blank cs

/-- The column after a call, as far as the library knows it: not after a `clear`. -/
def column (p : Option Nat) : LcdCall → Option Nat
  | .clear => none
  | .setCursor col _ => some col
  | .print text => p.map (· + text.length)
  | _ => p

/-- The call stays in its line and needs no letters but those of the alphabet. -/
def CallDrawable (alphabet : List Nat) (p : Option Nat) : LcdCall → Prop
  | .setCursor col row => col < 40 ∧ row < 2
  | .print text => (∃ n, p = some n ∧ n + text.length ≤ 40) ∧
      ∀ x ∈ text, x.toNat < 0x800 ∧ Legible alphabet x.toNat
  | _ => True

/-- All calls do, and between a `clear` and the next text the cursor is set. -/
def Drawable (alphabet : List Nat) : Option Nat → List LcdCall → Prop
  | _, [] => True
  | p, c :: cs => CallDrawable alphabet p c ∧ Drawable alphabet (column p c) cs

/-- Whether a text needs no letters but those of the alphabet. -/
def readable (alphabet : List Nat) (text : WString) : Bool :=
  text.all fun x => decide (x.toNat < 0x800) &&
    if (rus x.toNat).isSome then alphabet.contains x.toNat else decide (16 ≤ (code x.toNat).toNat)

theorem readable_spec {alphabet : List Nat} {text : WString} (h : readable alphabet text = true) :
    ∀ x ∈ text, x.toNat < 0x800 ∧ Legible alphabet x.toNat := by
  intro x hx
  have hone := List.all_eq_true.mp h x hx
  rw [Bool.and_eq_true, decide_eq_true_eq] at hone
  obtain ⟨htwo, hletter⟩ := hone
  refine ⟨htwo, ?_, ?_⟩
  · intro hrus
    rw [if_pos (Option.isSome_iff_ne_none.mpr hrus)] at hletter
    exact List.contains_iff_mem.mp hletter
  · intro hrus
    rw [hrus] at hletter
    simpa using hletter

theorem drawable_append {alphabet : List Nat} {p : Option Nat} {cs ds : List LcdCall} :
    Drawable alphabet p (cs ++ ds) ↔
      Drawable alphabet p cs ∧ Drawable alphabet (run column p cs) ds := by
  induction cs generalizing p with
  | nil => simp [Drawable]
  | cons c cs ih => rw [List.cons_append, Drawable, Drawable, ih, run_cons, and_assoc]

theorem screen_snoc (cs : List LcdCall) (c : LcdCall) :
    screen (cs ++ [c]) = shows (screen cs) c := run_snoc ..

/-! ### The start -/

/-- **After the start nothing is shown and nothing is drawn.** -/
theorem begin_renders (p : Port) : ∃ c, (call (lcd p) .begin).Renders c .blank [] := by
  obtain ⟨c, hat, hshows⟩ := LiquidCrystal.begin_shows (.new 2 p) (Or.inl rfl) rfl
  have hrows : (LiquidCrystal.begin (.new 2 p)).rows = 2 := LiquidCrystal.begin_rows _
  refine ⟨c, ⟨hat, hshows.ready, hrows, rfl, Nat.succ_pos 7⟩, hshows, List.nodup_nil, rfl, ?_,
    fun _ _ => rfl, ?_⟩
  · exact fun k hk => absurd hk (Nat.not_lt_zero k)
  · intro a ha
    have hcell := hshows.cells a
    rw [Controller.cell, Controller.glyph, if_pos ha] at hcell
    exact absurd hcell (by simp [Terminal.blank])

/-! ### Runs -/

/-- The display after some calls: sound in any case, and right if what has been
sent since the last `clear` is drawable. -/
structure Glass (l : Lcd1602Rus) (cs : List LcdCall) : Prop where
  sound : ∃ c, l.Sound c
  right : ∀ alphabet : List Nat, alphabet.length ≤ 7 → Drawable alphabet none cs →
    ∃ c ds, l.Renders c (page cs) ds ∧ ds ⊆ alphabet ∧
      ∀ n, run column none cs = some n → l.Positioned (page cs) n

theorem Glass.clear {l : Lcd1602Rus} {cs : List LcdCall} (h : Glass l cs) : Glass l.clear [] := by
  obtain ⟨c, hsound⟩ := h.sound
  refine ⟨⟨_, hsound.clear⟩, fun alphabet _ _ => ?_⟩
  exact ⟨_, [], hsound.clear_renders, List.nil_subset _,
    fun n hn => absurd (show none = some n from hn) (Option.some_ne_none n).symm⟩

theorem Glass.setCursor {l : Lcd1602Rus} {cs : List LcdCall} (h : Glass l cs) (col row : Nat) :
    Glass (call l (.setCursor col row)) (cs ++ [.setCursor col row]) := by
  obtain ⟨c, hsound⟩ := h.sound
  refine ⟨hsound.exists_setCursor _ _, fun alphabet halphabet hdraw => ?_⟩
  rw [drawable_append] at hdraw
  obtain ⟨hcs, ⟨hcol, hrow⟩, -⟩ := hdraw
  obtain ⟨c', ds, hrenders, hds, -⟩ := h.right alphabet halphabet hcs
  rw [page, run_snoc, ← page]
  refine ⟨_, ds, hrenders.setCursor hcol hrow, hds, ?_⟩
  intro n hn
  rw [run_snoc] at hn
  obtain rfl := Option.some.inj hn
  exact ⟨row, hrow, rfl, rfl, fun _ => rfl⟩

theorem Glass.print {l : Lcd1602Rus} {cs : List LcdCall} (h : Glass l cs) (text : WString) :
    Glass (call l (.print text)) (cs ++ [.print text]) := by
  obtain ⟨c, hsound⟩ := h.sound
  refine ⟨hsound.exists_print _, fun alphabet halphabet hdraw => ?_⟩
  rw [drawable_append] at hdraw
  obtain ⟨hcs, ⟨⟨n, hn, hroom⟩, htext⟩, -⟩ := hdraw
  obtain ⟨c', ds, hrenders, hds, hpos⟩ := h.right alphabet halphabet hcs
  obtain ⟨c'', ds', hprint, hds', hpos'⟩ := hrenders.print (hpos n hn) halphabet hds hroom
    (fun x hx => (htext x hx).1) (fun x hx => (htext x hx).2)
  rw [page, run_snoc, ← page]
  refine ⟨c'', ds', hprint, hds', ?_⟩
  intro m hm
  rw [run_snoc, hn] at hm
  obtain rfl := Option.some.inj hm
  exact hpos'

/-- The backlight is another matter. -/
theorem Glass.light {l : Lcd1602Rus} {cs : List LcdCall} (h : Glass l cs) :
    Glass (call l .backlight) cs ∧ Glass (call l .noBacklight) cs := by
  have hsound : ∀ {c : Controller}, l.Sound c →
      (call l .backlight).Sound c ∧ (call l .noBacklight).Sound c := by
    rintro c ⟨hdriver, hready, hrows, hsymbols, hlt⟩
    exact ⟨⟨hdriver.light.1, hready, hrows, hsymbols, hlt⟩,
      ⟨hdriver.light.2, hready, hrows, hsymbols, hlt⟩⟩
  obtain ⟨c, hc⟩ := h.sound
  refine ⟨⟨⟨c, (hsound hc).1⟩, ?_⟩, ⟨⟨c, (hsound hc).2⟩, ?_⟩⟩
  · intro alphabet halphabet hdraw
    obtain ⟨c', ds, hr, hds, hpos⟩ := h.right alphabet halphabet hdraw
    exact ⟨c', ds, ⟨(hsound hr.sound).1, hr.shows, hr.nodup, hr.symbol_index, hr.known, hr.unknown,
      hr.used⟩, hds, hpos⟩
  · intro alphabet halphabet hdraw
    obtain ⟨c', ds, hr, hds, hpos⟩ := h.right alphabet halphabet hdraw
    exact ⟨c', ds, ⟨(hsound hr.sound).2, hr.shows, hr.nodup, hr.symbol_index, hr.known, hr.unknown,
      hr.used⟩, hds, hpos⟩

theorem glass_run (p : Port) {cs : List LcdCall} (hcs : LcdCall.begin ∉ cs) :
    Glass (run call (call (lcd p) .begin) cs) (screen cs) := by
  induction cs using List.reverseRecOn with
  | nil =>
    obtain ⟨c, hrenders⟩ := begin_renders p
    exact ⟨⟨c, hrenders.sound⟩, fun _ _ _ => ⟨c, [], hrenders, List.nil_subset _,
      fun n hn => absurd (show none = some n from hn) (Option.some_ne_none n).symm⟩⟩
  | append_singleton cs c ih =>
    rw [List.mem_append, List.mem_singleton, not_or] at hcs
    have hglass := ih hcs.1
    rw [run_snoc, screen_snoc]
    cases c with
    | begin => exact absurd rfl hcs.2
    | clear => exact hglass.clear
    | setCursor col row => exact hglass.setCursor col row
    | print text => exact hglass.print text
    | backlight => exact hglass.light.1
    | noBacklight => exact hglass.light.2

end Polivunator.Lcd
