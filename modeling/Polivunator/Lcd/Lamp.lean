import Polivunator.Lcd.Pages

/-!
# The lamp

One output of the expander is the light behind the display.  Every byte that the
driver writes carries it along, so each of its functions could switch it by
accident.  `Lamp` is what they keep: the output is as `_backlightval`, whatever
else is sent.

`lamp_shows` is every return of `Menu()` in every run.
-/

namespace Polivunator.Lcd

open Labelled Display

/-- The output for the light. -/
def lampBit (on : Bool) : UInt8 := if on then LCD_BACKLIGHT else LCD_NOBACKLIGHT

/-- The light is on or off, and the driver takes it for that. -/
structure Lamp (on : Bool) (l : LiquidCrystal) : Prop where
  backlightval : l.backlightval = lampBit on
  output : l.port.output &&& LCD_BACKLIGHT = lampBit on

namespace LiquidCrystal

/-! ### The driver -/

theorem write4bits_backlightval (value : UInt8) (l : LiquidCrystal) :
    (write4bits value l).backlightval = l.backlightval := rfl

/-- Only the two functions for it write `_backlightval`. -/
theorem send_backlightval (value mode : UInt8) (l : LiquidCrystal) :
    (send value mode l).backlightval = l.backlightval := by
  rw [send, write4bits_backlightval, write4bits_backlightval]

/-- A byte without the light gets the light. -/
theorem lamp_expanderWrite {on : Bool} {data : UInt8} (hdata : data &&& LCD_BACKLIGHT = 0)
    {l : LiquidCrystal} (h : l.backlightval = lampBit on) : Lamp on (expanderWrite data l) := by
  have hor : ∀ data : UInt8, data &&& LCD_BACKLIGHT = 0 →
      (data ||| lampBit true) &&& LCD_BACKLIGHT = lampBit true ∧
        (data ||| lampBit false) &&& LCD_BACKLIGHT = lampBit false :=
    Bits.forall_byte (by decide +kernel)
  refine ⟨h, ?_⟩
  show (data ||| l.backlightval) &&& LCD_BACKLIGHT = lampBit on
  rw [h]
  cases on with
  | true => exact (hor data hdata).1
  | false => exact (hor data hdata).2

theorem lamp_write4bits {on : Bool} {value : UInt8} (hvalue : value &&& LCD_BACKLIGHT = 0)
    {l : LiquidCrystal} (h : l.backlightval = lampBit on) : Lamp on (write4bits value l) := by
  have hlow : (value &&& ~~~En) &&& LCD_BACKLIGHT = 0 := by
    rw [UInt8.and_assoc, UInt8.and_comm (~~~En), ← UInt8.and_assoc, hvalue, UInt8.zero_and]
  exact lamp_expanderWrite hlow h

/-- **No byte switches the light.** -/
theorem lamp_send {on : Bool} (value : UInt8) {mode : UInt8} (hmode : mode = 0 ∨ mode = Rs)
    {l : LiquidCrystal} (h : l.backlightval = lampBit on) : Lamp on (send value mode l) := by
  have hnibble : ∀ value : UInt8, ((value <<< 4) &&& 0xf0 ||| 0) &&& LCD_BACKLIGHT = 0 ∧
      ((value <<< 4) &&& 0xf0 ||| Rs) &&& LCD_BACKLIGHT = 0 :=
    Bits.forall_byte (by decide +kernel)
  rw [send]
  apply lamp_write4bits
  · rcases hmode with rfl | rfl
    · exact (hnibble value).1
    · exact (hnibble value).2
  · exact h

theorem lamp_command {on : Bool} (value : UInt8) {l : LiquidCrystal}
    (h : l.backlightval = lampBit on) : Lamp on (command value l) :=
  lamp_send value (Or.inl rfl) h

theorem lamp_createChar {on : Bool} (location : UInt8) (charmap : List UInt8) {l : LiquidCrystal}
    (h : l.backlightval = lampBit on) : Lamp on (createChar location charmap l) := by
  have hwrites : ∀ {l : LiquidCrystal}, Lamp on l → Lamp on (charmap.foldl (fun l b => write b l) l) := by
    induction charmap with
    | nil => exact fun h => h
    | cons b charmap ih =>
      intro l h
      rw [List.foldl_cons]
      exact ih (lamp_send b (Or.inr rfl) h.backlightval)
  rw [createChar]
  exact hwrites (lamp_command _ h)

theorem lamp_setCursor {on : Bool} (col row : UInt8) {l : LiquidCrystal}
    (h : l.backlightval = lampBit on) : Lamp on (setCursor col row l) := by
  rw [setCursor]
  exact lamp_command _ h

theorem command_backlightval (value : UInt8) (l : LiquidCrystal) :
    (command value l).backlightval = l.backlightval := send_backlightval value 0 l

/-- The start ends with a command. -/
theorem lamp_beginModes {on : Bool} {l : LiquidCrystal} (h : l.backlightval = lampBit on) :
    Lamp on (beginModes l) := by
  have hdisplay : ∀ l : LiquidCrystal, (display l).backlightval = l.backlightval :=
    fun l => command_backlightval _ _
  unfold beginModes home
  apply lamp_command
  rw [command_backlightval]
  dsimp only
  rw [clear, command_backlightval, hdisplay]
  dsimp only
  rw [command_backlightval]
  exact h

theorem lamp_begin {on : Bool} {l : LiquidCrystal} (h : l.backlightval = lampBit on) :
    Lamp on (begin l) := by
  rw [begin]
  apply lamp_beginModes
  unfold begin4bits
  dsimp only
  rw [write4bits_backlightval, write4bits_backlightval, write4bits_backlightval,
    write4bits_backlightval]
  exact h

end LiquidCrystal

/-! ### The calls -/

open LiquidCrystal

theorem lamp_charSetToLCD {on : Bool} (array : List UInt8) (chr : Nat) {l : Lcd1602Rus}
    (h : Lamp on l.liquid) : Lamp on (l.charSetToLCD array chr).liquid := by
  unfold Lcd1602Rus.charSetToLCD
  split_ifs
  · have hdrawn := lamp_createChar (UInt8.ofNat l.symbol_index) array h.backlightval
    have hback := lamp_setCursor l.cursor_col l.cursor_row hdrawn.backlightval
    dsimp only
    split_ifs
    · exact lamp_send _ (Or.inr rfl) hback.backlightval
    · exact lamp_send _ (Or.inr rfl) hback.backlightval
  · exact lamp_send _ (Or.inr rfl) h.backlightval

/-- A text of any letters. -/
theorem lamp_print {on : Bool} (str : List UInt8) {l : Lcd1602Rus} (h : Lamp on l.liquid) :
    Lamp on (l.print str).liquid := by
  unfold Lcd1602Rus.print
  induction Lcd1602Rus.letters str generalizing l with
  | nil => exact h
  | cons chr chrs ih =>
    have hprint : Lamp on (l.printwc chr).liquid := by
      unfold Lcd1602Rus.printwc
      split
      · exact lamp_charSetToLCD _ chr h
      · exact lamp_send _ (Or.inr rfl) h.backlightval
    exact ih (l := l.printStep chr) hprint

/-- **One call.**  Only the two calls for it switch the light. -/
theorem lamp_call {lit : Option Bool} {l : Lcd1602Rus} (h : Lamp (lit.getD true) l.liquid)
    (c : LcdCall) : Lamp ((lights lit c).getD true) (call l c).liquid := by
  cases c with
  | begin => exact lamp_begin h.backlightval
  | clear => exact lamp_command _ h.backlightval
  | setCursor col row => exact lamp_setCursor _ _ h.backlightval
  | print text => exact lamp_print _ h
  | backlight => exact lamp_expanderWrite rfl rfl
  | noBacklight => exact lamp_expanderWrite rfl rfl

theorem lamp_run (p : Port) (cs : List LcdCall) :
    Lamp ((light cs).getD true) (run call (call (lcd p) .begin) cs).liquid := by
  induction cs using List.reverseRecOn with
  | nil => exact lamp_begin rfl
  | append_singleton cs c ih =>
    rw [run_snoc, light, run_snoc, ← light]
    exact lamp_call ih c

/-- **The light is as switched.**  Whatever the expander put out when the board was
switched on: whenever `Menu()` returns, the output for the light is on if and only
if the light has been switched on. -/
theorem lamp_shows (p : Port) (rs : List Round) (r : Round) :
    (run call (lcd p) (after (roundEvents rs ++ r.upToMenu)).lcd).liquid.port.output &&&
        LCD_BACKLIGHT ≠ 0 ↔
      (after (roundEvents rs ++ r.upToMenu)).lcdBrigtlight = true := by
  have hlit := (upToMenu_shown (rounds_current rs) r).lit
  obtain ⟨cs, hcs, -⟩ := after_begun (roundEvents rs ++ r.upToMenu)
  have hlamp := lamp_run p cs
  rw [hcs] at hlit
  have hlight : light cs = some (after (roundEvents rs ++ r.upToMenu)).lcdBrigtlight := hlit
  rw [hcs, run_cons]
  rw [hlight, Option.getD_some] at hlamp
  rw [hlamp.output]
  cases (after (roundEvents rs ++ r.upToMenu)).lcdBrigtlight <;> decide

end Polivunator.Lcd
