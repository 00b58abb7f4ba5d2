import Mathlib.Data.List.Nodup
import Mathlib.Data.List.Perm.Subperm
import Polivunator.Lcd.Russian

/-!
# Seven letters at most

What the display shows is compared with a terminal that has every letter of its
own (`look`).  `Sound` is what every call of the driver keeps.  `Renders` adds
that the display shows what the terminal does; it says which letters have been
drawn and that no slot is on the display but theirs.

`Renders.printStep` is one letter, `Renders.print` a text.  They ask for an
alphabet of at most seven letters to draw: with seven the class never starts
again with the first slot.
-/

namespace Polivunator.Lcd

open Hd44780

/-- What a letter should look like. -/
def look (chr : Nat) : Glyph :=
  match rus chr with
  | some rows => .drawn (rows.map UInt8.toNat)
  | none => .rom (code chr).toNat

theorem length_rus {chr : Nat} {rows : List UInt8} (h : rus chr = some rows) : rows.length = 8 := by
  unfold rus at h
  split at h
  case h_48 => exact absurd h (by simp)
  all_goals
    obtain rfl := Option.some.inj h
    rfl

/-- The letter is of the alphabet or has a glyph of the display's own. -/
def Legible (alphabet : List Nat) (chr : Nat) : Prop :=
  (rus chr ≠ none → chr ∈ alphabet) ∧ (rus chr = none → 16 ≤ (code chr).toNat)

namespace Lcd1602Rus

/-! ### What every call keeps -/

structure Sound (l : Lcd1602Rus) (c : Controller) : Prop where
  driver : l.liquid.At c
  ready : c.Ready
  rows : l.liquid.rows = 2
  symbols : l.max_symbol_count = 8
  symbol_lt : l.symbol_index < 8

namespace Sound

variable {l : Lcd1602Rus} {c : Controller}

theorem clear (h : Sound l c) : Sound l.clear (c.instruction 1) :=
  ⟨h.driver.clear h.ready.inStep, h.ready.clear,
    (LiquidCrystal.command_rows 1 l.liquid).trans h.rows, h.symbols, Nat.succ_pos 7⟩

theorem write (h : Sound l c) (value : UInt8) : Sound (l.write value) (c.write value.toNat) :=
  ⟨h.driver.write h.ready.inStep value, h.ready.write _,
    (LiquidCrystal.write_rows value l.liquid).trans h.rows, h.symbols, h.symbol_lt⟩

theorem exists_setCursor (h : Sound l c) (col row : UInt8) :
    ∃ c, Sound (l.setCursor col row) c := by
  obtain ⟨b, hb, hset⟩ := h.driver.exists_setCursor h.ready.inStep col row
  exact ⟨_, hset, h.ready.address (by omega), (LiquidCrystal.command_rows _ l.liquid).trans h.rows,
    h.symbols, h.symbol_lt⟩

theorem setCursor (h : Sound l c) {col row : Nat} (hcol : col < 40) (hrow : row < 2) :
    Sound (l.setCursor (UInt8.ofNat col) (UInt8.ofNat row))
      (c.instruction (128 + (row * 64 + col))) :=
  ⟨h.driver.setCursor h.ready.inStep h.rows hcol hrow, h.ready.address (by omega),
    (LiquidCrystal.command_rows _ l.liquid).trans h.rows, h.symbols, h.symbol_lt⟩

/-- A glyph is drawn into the next slot. -/
theorem createChar (h : Sound l c) {rows : List UInt8} (hrows : rows.length = 8) :
    Sound { l with liquid := l.liquid.createChar (UInt8.ofNat l.symbol_index) rows }
      (c.draw l.symbol_index (rows.map UInt8.toNat)) :=
  ⟨h.driver.createChar h.ready h.symbol_lt rows,
    (Controller.draw_spec h.ready h.symbol_lt (by rw [List.length_map, hrows])).1,
    (LiquidCrystal.createChar_rows _ rows l.liquid).trans h.rows, h.symbols, h.symbol_lt⟩

theorem exists_printStep (h : Sound l c) (chr : Nat) : ∃ c, Sound (l.printStep chr) c := by
  have hprint : ∃ c, Sound (l.printwc chr) c := by
    unfold printwc
    split
    case h_1 rows hrus =>
      unfold charSetToLCD
      split_ifs with hindex
      · have hdraw := h.createChar (length_rus hrus)
        obtain ⟨c', hset⟩ := hdraw.exists_setCursor l.cursor_col l.cursor_row
        obtain ⟨hdriver, hready, hrows, hsymbols, -⟩ := hset.write (UInt8.ofNat l.symbol_index)
        dsimp only
        split_ifs with hfull
        · exact ⟨_, hdriver, hready, hrows, hsymbols, Nat.succ_pos 7⟩
        · refine ⟨_, hdriver, hready, hrows, hsymbols, ?_⟩
          have hmax : l.max_symbol_count = 8 := h.symbols
          have hlt : ¬ l.symbol_index + 1 ≥ l.max_symbol_count := hfull
          show l.symbol_index + 1 < 8
          omega
      · exact ⟨_, h.write _⟩
    case h_2 => exact ⟨_, h.write _⟩
  obtain ⟨c', hdriver, hready, hrows, hsymbols, hlt⟩ := hprint
  exact ⟨c', hdriver, hready, hrows, hsymbols, hlt⟩

/-- **Printing keeps the modes**, whatever is printed. -/
theorem exists_print (h : Sound l c) (str : List UInt8) : ∃ c, Sound (l.print str) c := by
  unfold print
  induction letters str generalizing l c with
  | nil => exact ⟨c, h⟩
  | cons chr chrs ih =>
    obtain ⟨c', h'⟩ := h.exists_printStep chr
    exact ih h'

end Sound

/-! ### What is shown -/

/-- The display shows what the terminal shows, and these letters have been drawn. -/
structure Renders (l : Lcd1602Rus) (c : Controller) (t : Terminal) (ds : List Nat) : Prop where
  sound : Sound l c
  shows : Shows c t
  nodup : ds.Nodup
  symbol_index : l.symbol_index = ds.length
  known : ∀ k (h : k < ds.length), l.index ds[k] = UInt8.ofNat k ∧ c.glyph k = look ds[k]
  unknown : ∀ chr ∉ ds, l.index chr = 255
  used : ∀ a, c.ddram a < 16 → c.ddram a % 8 < ds.length

/-- Where the class takes the cursor to be, and that it is there while there is
room in the line. -/
def Positioned (l : Lcd1602Rus) (t : Terminal) (col : Nat) : Prop :=
  ∃ row < 2, l.cursor_row = UInt8.ofNat row ∧ l.cursor_col = UInt8.ofNat col ∧
    (col < 40 → t.cursor = row * 64 + col)

/-- Printing a letter does not move what the class takes for the cursor. -/
theorem printwc_cursor (chr : Nat) (l : Lcd1602Rus) :
    (l.printwc chr).cursor_col = l.cursor_col ∧ (l.printwc chr).cursor_row = l.cursor_row := by
  unfold printwc
  split
  · unfold charSetToLCD
    dsimp only
    split_ifs <;> exact ⟨rfl, rfl⟩
  · exact ⟨rfl, rfl⟩

/-- **After `clear` nothing is shown and nothing is drawn.** -/
theorem Sound.clear_renders {l : Lcd1602Rus} {c : Controller} (h : Sound l c) :
    Renders l.clear (c.instruction 1) .blank [] :=
  ⟨h.clear, shows_clear h.ready, List.nodup_nil, rfl, fun k hk => absurd hk (Nat.not_lt_zero k),
    fun _ _ => rfl, fun _ hlt => absurd hlt (show ¬ 0x20 < 16 by decide)⟩

namespace Renders

variable {l : Lcd1602Rus} {c : Controller} {t : Terminal} {ds : List Nat}

theorem length_lt (h : Renders l c t ds) : ds.length < 8 := by
  rw [← h.symbol_index]
  exact h.sound.symbol_lt

theorem setCursor (h : Renders l c t ds) {col row : Nat} (hcol : col < 40) (hrow : row < 2) :
    Renders (l.setCursor (UInt8.ofNat col) (UInt8.ofNat row))
      (c.instruction (128 + (row * 64 + col))) (t.goto (row * 64 + col)) ds := by
  have haddress : row * 64 + col < 128 := by omega
  have hset := Controller.instruction_address (show 128 ≤ 128 + (row * 64 + col) by omega) c
  refine ⟨h.sound.setCursor hcol hrow, h.shows.goto haddress, h.nodup, h.symbol_index, ?_,
    h.unknown, ?_⟩
  · intro k hk
    refine ⟨(h.known k hk).1, ?_⟩
    rw [hset, ← (h.known k hk).2]
    rfl
  · rw [hset]
    exact h.used

/-- A code that is no slot, or the slot of a letter. -/
theorem write (h : Renders l c t ds) {value : UInt8}
    (hvalue : 16 ≤ value.toNat ∨ value.toNat < ds.length) :
    Renders (l.write value) (c.write value.toNat) (t.put (c.glyph value.toNat)) ds := by
  have hwrite := h.sound.ready.write_text h.shows.text value.toNat
  refine ⟨h.sound.write value, h.shows.write _, h.nodup, h.symbol_index, ?_, h.unknown, ?_⟩
  · intro k hk
    refine ⟨(h.known k hk).1, ?_⟩
    rw [hwrite, ← (h.known k hk).2]
    rfl
  · rw [hwrite]
    intro a ha
    dsimp only at ha ⊢
    by_cases haddress : a = c.address
    · rw [haddress, Function.update_self] at ha ⊢
      omega
    · rw [Function.update_of_ne haddress] at ha ⊢
      exact h.used a ha

/-- The slot of a letter that has been drawn. -/
theorem glyph_index (h : Renders l c t ds) {chr : Nat} (hchr : chr ∈ ds) :
    l.index chr ≠ 255 ∧ (l.index chr).toNat < ds.length ∧
      c.glyph (l.index chr).toNat = look chr := by
  obtain ⟨k, hk, rfl⟩ := List.getElem_of_mem hchr
  have hlt := h.length_lt
  obtain ⟨hindex, hglyph⟩ := h.known k hk
  have hnat : (UInt8.ofNat k).toNat = k := by
    rw [UInt8.toNat_ofNat', Nat.mod_eq_of_lt (by omega)]
  rw [hindex, hnat]
  refine ⟨?_, hk, hglyph⟩
  intro hmax
  rw [hmax] at hnat
  have h255 : (255 : UInt8).toNat = 255 := rfl
  omega

/-- **A new letter** is drawn into the next slot and written there. -/
theorem charSetToLCD_new (h : Renders l c t ds) {col : Nat} (hpos : Positioned l t col)
    (hcol : col < 40) {chr : Nat} {rows : List UInt8} (hrus : rus chr = some rows) (hchr : chr ∉ ds)
    (hroom : ds.length < 7) :
    ∃ c, Renders (l.charSetToLCD rows chr) c (t.put (look chr)) (ds ++ [chr]) := by
  obtain ⟨row, hrow, hcursorRow, hcursorCol, hcursor⟩ := hpos
  have hcursor := hcursor hcol
  have hlen : (rows.map UInt8.toNat).length = 8 := by rw [List.length_map, length_rus hrus]
  have hslot : ds.length < 8 := by omega
  have hnat : (UInt8.ofNat l.symbol_index).toNat = ds.length := by
    rw [h.symbol_index, UInt8.toNat_ofNat', Nat.mod_eq_of_lt (by omega)]
  -- the class is where it takes itself to be, so it comes back to the cursor
  have hback : Sound ({ l with
      liquid := l.liquid.createChar (UInt8.ofNat l.symbol_index) rows } |>.setCursor l.cursor_col
        l.cursor_row) ((c.draw ds.length (rows.map UInt8.toNat)).instruction (128 + t.cursor)) := by
    rw [hcursorCol, hcursorRow, hcursor, ← h.symbol_index]
    exact (h.sound.createChar (length_rus hrus)).setCursor hcol hrow
  have hshows :
      Shows ((c.draw ds.length (rows.map UInt8.toNat)).instruction (128 + t.cursor)) t := by
    refine h.shows.draw hslot hlen ?_ (by omega)
    intro a ha heq
    have hused := h.used a ha
    omega
  have hlook : look chr = .drawn (rows.map UInt8.toNat) := by rw [look, hrus]
  obtain ⟨hddram, hglyph⟩ := Controller.draw_back h.sound.ready hslot hlen t.cursor
  rw [← hlook] at hglyph
  have hwritten := hback.write (UInt8.ofNat l.symbol_index)
  have hput := hshows.write ds.length
  have hwrite := hback.ready.write_text hshows.text ds.length
  rw [hnat] at hwritten
  rw [hglyph _ hslot, if_pos rfl] at hput
  generalize (c.draw ds.length (rows.map UInt8.toNat)).instruction (128 + t.cursor) = c' at *
  refine ⟨c'.write ds.length, ?_⟩
  have hmax := h.sound.symbols
  have hindex := h.symbol_index
  rw [charSetToLCD, if_pos (h.unknown chr hchr)]
  dsimp only
  split_ifs with hfull
  · have hge : l.symbol_index + 1 ≥ l.max_symbol_count := hfull
    omega
  · obtain ⟨hdriver, hready, hrows, hsymbols, -⟩ := hwritten
    refine ⟨⟨hdriver, hready, hrows, hsymbols, ?_⟩, hput, ?_, ?_, ?_, ?_, ?_⟩
    · show l.symbol_index + 1 < 8
      omega
    · rw [← List.concat_eq_append]
      exact h.nodup.concat hchr
    · show l.symbol_index + 1 = (ds ++ [chr]).length
      rw [List.length_append, List.length_singleton, hindex]
    · intro k hk
      rw [List.length_append, List.length_singleton] at hk
      show Function.update l.index chr (UInt8.ofNat l.symbol_index) (ds ++ [chr])[k] = _ ∧ _
      rw [hwrite]
      rcases Nat.lt_or_ge k ds.length with hlt | hge
      · rw [List.getElem_append_left hlt, Function.update_of_ne]
        · refine ⟨(h.known k hlt).1, (hglyph k (by omega)).trans ?_⟩
          rw [if_neg (by omega)]
          exact (h.known k hlt).2
        · intro heq
          apply hchr
          rw [← heq]
          exact List.getElem_mem hlt
      · obtain rfl : k = ds.length := by omega
        rw [List.getElem_concat_length rfl, Function.update_self, hindex]
        refine ⟨rfl, (hglyph _ hslot).trans ?_⟩
        rw [if_pos rfl]
    · intro chr' hchr'
      rw [List.mem_append, List.mem_singleton, not_or] at hchr'
      show Function.update l.index chr (UInt8.ofNat l.symbol_index) chr' = 255
      rw [Function.update_of_ne hchr'.2]
      exact h.unknown chr' hchr'.1
    · rw [hwrite, List.length_append, List.length_singleton]
      intro a ha
      dsimp only at ha ⊢
      by_cases haddress : a = c'.address
      · rw [haddress, Function.update_self] at ha ⊢
        omega
      · rw [Function.update_of_ne haddress, hddram] at ha ⊢
        have hused := h.used a ha
        omega

/-- **One letter.** -/
theorem printStep (h : Renders l c t ds) {col : Nat} (hpos : Positioned l t col) (hcol : col < 40)
    {alphabet : List Nat} (halphabet : alphabet.length ≤ 7) (hds : ds ⊆ alphabet) {chr : Nat}
    (hchr : Legible alphabet chr) :
    ∃ c ds, Renders (l.printStep chr) c (t.put (look chr)) ds ∧ ds ⊆ alphabet ∧
      Positioned (l.printStep chr) (t.put (look chr)) (col + 1) := by
  have hprint : ∃ c ds, Renders (l.printwc chr) c (t.put (look chr)) ds ∧ ds ⊆ alphabet := by
    unfold printwc
    split
    case h_1 rows hrus =>
      have hmem := hchr.1 (by rw [hrus]; simp)
      by_cases hold : chr ∈ ds
      · obtain ⟨hindex, hlt, hglyph⟩ := h.glyph_index hold
        rw [charSetToLCD, if_neg hindex, ← hglyph]
        exact ⟨_, ds, h.write (Or.inr hlt), hds⟩
      · have hroom : ds.length < 7 := by
          have hlen := (List.Nodup.subperm (List.nodup_cons.mpr ⟨hold, h.nodup⟩)
            (List.cons_subset.mpr ⟨hmem, hds⟩)).length_le
          rw [List.length_cons] at hlen
          omega
        obtain ⟨c', hnew⟩ := h.charSetToLCD_new hpos hcol hrus hold hroom
        refine ⟨c', _, hnew, ?_⟩
        intro x hx
        rcases List.mem_append.mp hx with hx | hx
        · exact hds hx
        · rw [List.mem_singleton.mp hx]
          exact hmem
    case h_2 hrus =>
      have hcode := hchr.2 hrus
      have hlook : look chr = c.glyph (code chr).toNat := by
        rw [look, hrus, Controller.glyph, if_neg (by omega)]
      rw [hlook]
      exact ⟨_, ds, h.write (Or.inl hcode), hds⟩
  obtain ⟨c', ds', hnew, hsub⟩ := hprint
  obtain ⟨hsound, hshows, hnodup, hindex, hknown, hunknown, hused⟩ := hnew
  obtain ⟨hdriver, hready, hrows, hsymbols, hlt⟩ := hsound
  obtain ⟨row, hrow, hcursorRow, hcursorCol, hcursor⟩ := hpos
  obtain ⟨hkeepCol, hkeepRow⟩ := printwc_cursor chr l
  refine ⟨c', ds', ⟨⟨hdriver, hready, hrows, hsymbols, hlt⟩, hshows, hnodup, hindex, hknown,
    hunknown, hused⟩, hsub, row, hrow, hkeepRow.trans hcursorRow, ?_, ?_⟩
  · show (l.printwc chr).cursor_col + 1 = UInt8.ofNat (col + 1)
    rw [hkeepCol, hcursorCol, UInt8.ofNat_add]
    rfl
  · intro hnext
    show after t.cursor = row * 64 + (col + 1)
    rw [hcursor hcol, after, if_neg (by omega), if_neg (by omega)]
    omega

/-- **A text.** -/
theorem print (h : Renders l c t ds) {col : Nat} (hpos : Positioned l t col)
    {alphabet : List Nat} (halphabet : alphabet.length ≤ 7) (hds : ds ⊆ alphabet) {text : WString}
    (hroom : col + text.length ≤ 40) (htwo : ∀ x ∈ text, x.toNat < 0x800)
    (hlegible : ∀ x ∈ text, Legible alphabet x.toNat) :
    ∃ c ds, Renders (l.print (utf8 text)) c (text.foldl (fun t x => t.put (look x.toNat)) t) ds ∧
      ds ⊆ alphabet ∧
      Positioned (l.print (utf8 text)) (text.foldl (fun t x => t.put (look x.toNat)) t)
        (col + text.length) := by
  rw [Lcd1602Rus.print, letters_utf8 htwo, List.foldl_map]
  clear htwo
  induction text generalizing l c t ds col with
  | nil => exact ⟨c, ds, h, hds, hpos⟩
  | cons x text ih =>
    rw [List.length_cons] at hroom ⊢
    obtain ⟨c', ds', hstep, hds', hpos'⟩ := h.printStep hpos (by omega) halphabet hds
      (hlegible x (List.mem_cons_self ..))
    have hrest := ih hstep hpos' hds' (by omega)
      (fun y hy => hlegible y (List.mem_cons_of_mem x hy))
    rw [Nat.add_right_comm, Nat.add_assoc] at hrest
    exact hrest

end Renders

end Lcd1602Rus

end Polivunator.Lcd
