import Polivunator.Library.Bits
import Polivunator.Library.Hd44780

/-!
# The driver of the display

`LiquidCrystal_I2C` writes single bytes to an expander, whose eight outputs are
the lines of the display: four of data, the backlight, and `En`, `Rw` and `Rs`.
The display takes the data when `En` falls.

`send_eq` says that what the driver calls a byte is a byte for the display.
`begin_shows` is its start: whatever the expander puts out and whatever state
the display was left in, it shows a blank page afterwards and is in step.
-/

namespace Polivunator.Lcd

open Hd44780

/-! ### The expander -/

def En : UInt8 := 0b00000100
def Rw : UInt8 := 0b00000010
def Rs : UInt8 := 0b00000001

/-- The outputs of the expander and the display behind them. -/
structure Port where
  output : UInt8
  controller : Controller

/-- The expander gets a byte.  When `En` falls the display takes what the lines
have carried. -/
def Port.receive (b : UInt8) (p : Port) : Port where
  output := b
  controller :=
    if p.output &&& En ≠ 0 ∧ b &&& En = 0 ∧ p.output &&& Rw = 0 then
      p.controller.nibble (decide (p.output &&& Rs ≠ 0)) (p.output.toNat / 16)
    else p.controller

theorem Port.receive_low {p : Port} (h : p.output &&& En = 0) (b : UInt8) :
    p.receive b = ⟨b, p.controller⟩ := by
  rw [Port.receive, if_neg (fun hc => hc.1 h)]

theorem Port.receive_falling {p : Port} {b : UInt8} (h : p.output &&& En ≠ 0) (hb : b &&& En = 0)
    (hw : p.output &&& Rw = 0) :
    p.receive b =
      ⟨b, p.controller.nibble (decide (p.output &&& Rs ≠ 0)) (p.output.toNat / 16)⟩ := by
  rw [Port.receive, if_pos ⟨h, hb, hw⟩]

/-! ### The driver -/

/-- `LiquidCrystal_I2C` and what is at the other end of its wire. -/
structure LiquidCrystal where
  rows : UInt8
  charsize : UInt8
  displayfunction : UInt8
  displaycontrol : UInt8
  displaymode : UInt8
  backlightval : UInt8
  port : Port

def LCD_BACKLIGHT : UInt8 := 0x08
def LCD_NOBACKLIGHT : UInt8 := 0x00

namespace LiquidCrystal

/-- `LiquidCrystal_I2C(lcd_addr, lcd_cols, lcd_rows)`, of a global object. -/
def new (lcd_rows : UInt8) (p : Port) : LiquidCrystal where
  rows := lcd_rows
  charsize := 0
  displayfunction := 0
  displaycontrol := 0
  displaymode := 0
  backlightval := LCD_BACKLIGHT
  port := p

/-- `expanderWrite(_data)`. -/
def expanderWrite (data : UInt8) (l : LiquidCrystal) : LiquidCrystal :=
  { l with port := l.port.receive (data ||| l.backlightval) }

/-- `pulseEnable(_data)`. -/
def pulseEnable (data : UInt8) (l : LiquidCrystal) : LiquidCrystal :=
  expanderWrite (data &&& ~~~En) (expanderWrite (data ||| En) l)

/-- `write4bits(value)`. -/
def write4bits (value : UInt8) (l : LiquidCrystal) : LiquidCrystal :=
  pulseEnable value (expanderWrite value l)

/-- `send(value, mode)`. -/
@[irreducible] def send (value mode : UInt8) (l : LiquidCrystal) : LiquidCrystal :=
  let highnib := value &&& 0xf0
  let lownib := (value <<< 4) &&& 0xf0
  write4bits (lownib ||| mode) (write4bits (highnib ||| mode) l)

/-- `command(value)`. -/
def command (value : UInt8) (l : LiquidCrystal) : LiquidCrystal := send value 0 l

/-- `write(value)`. -/
def write (value : UInt8) (l : LiquidCrystal) : LiquidCrystal := send value Rs l

/-- `clear()`. -/
def clear (l : LiquidCrystal) : LiquidCrystal := command 0x01 l

/-- `home()`. -/
def home (l : LiquidCrystal) : LiquidCrystal := command 0x02 l

/-- `display()`. -/
def display (l : LiquidCrystal) : LiquidCrystal :=
  let l := { l with displaycontrol := l.displaycontrol ||| 0x04 }
  command (0x08 ||| l.displaycontrol) l

def row_offsets : List Nat := [0x00, 0x40, 0x14, 0x54]

/-- `setCursor(col, row)`. -/
def setCursor (col row : UInt8) (l : LiquidCrystal) : LiquidCrystal :=
  let row := if row > l.rows then l.rows - 1 else row
  command (UInt8.ofNat (0x80 ||| (col.toNat + row_offsets.getD row.toNat 0))) l

/-- `createChar(location, charmap)`. -/
def createChar (location : UInt8) (charmap : List UInt8) (l : LiquidCrystal) : LiquidCrystal :=
  let location := location &&& 0x7
  charmap.foldl (fun l b => write b l) (command ((0x40 : UInt8) ||| (location <<< (3 : UInt8))) l)

/-- `noBacklight()`. -/
def noBacklight (l : LiquidCrystal) : LiquidCrystal :=
  expanderWrite 0 { l with backlightval := LCD_NOBACKLIGHT }

/-- `backlight()`. -/
def backlight (l : LiquidCrystal) : LiquidCrystal :=
  expanderWrite 0 { l with backlightval := LCD_BACKLIGHT }

/-- What `begin()` puts into `_displayfunction`. -/
def beginFunction (l : LiquidCrystal) : UInt8 :=
  let displayfunction : UInt8 := 0x00
  let displayfunction := if l.rows > 1 then displayfunction ||| 0x08 else displayfunction
  if l.charsize ≠ 0 ∧ l.rows = 1 then displayfunction ||| 0x04 else displayfunction

/-- `begin()`: over to four lines. -/
def begin4bits (l : LiquidCrystal) : LiquidCrystal :=
  let l := expanderWrite l.backlightval l
  let l := write4bits ((0x03 : UInt8) <<< 4) l
  let l := write4bits ((0x03 : UInt8) <<< 4) l
  let l := write4bits ((0x03 : UInt8) <<< 4) l
  write4bits ((0x02 : UInt8) <<< 4) l

/-- `begin()`: the modes. -/
def beginModes (l : LiquidCrystal) : LiquidCrystal :=
  let l := command (0x20 ||| l.displayfunction) l
  let l := display { l with displaycontrol := 0x04 }
  let l := clear l
  let l := { l with displaymode := 0x02 }
  let l := command (0x04 ||| l.displaymode) l
  home l

/-- `begin()`. -/
def begin (l : LiquidCrystal) : LiquidCrystal :=
  beginModes (begin4bits { l with displayfunction := beginFunction l })

/-! ### One half of a byte -/

/-- The backlight is on or off. -/
def Lit (l : LiquidCrystal) : Prop :=
  l.backlightval = LCD_BACKLIGHT ∨ l.backlightval = LCD_NOBACKLIGHT

/-- `En` is low. -/
structure Quiet (l : LiquidCrystal) : Prop where
  low : l.port.output &&& En = 0
  light : l.Lit

/-- The lines while `En` is high and after. -/
theorem lines : ∀ n < 16, ∀ rs : Bool, ∀ light ∈ [LCD_BACKLIGHT, LCD_NOBACKLIGHT],
    let value := UInt8.ofNat (16 * n) ||| (if rs then Rs else 0)
    let high := value ||| En ||| light
    (value ||| light) &&& En = 0 ∧ high &&& En ≠ 0 ∧ high &&& Rw = 0 ∧
      decide (high &&& Rs ≠ 0) = rs ∧ high.toNat / 16 = n ∧
      (value &&& ~~~En ||| light) &&& En = 0 := by
  decide +kernel

/-- **`write4bits` brings its four bits to the display.** -/
theorem write4bits_eq {l : LiquidCrystal} (h : l.Quiet) {n : Nat} (hn : n < 16) (rs : Bool) :
    ∃ output, output &&& En = 0 ∧
      write4bits (UInt8.ofNat (16 * n) ||| (if rs then Rs else 0)) l =
        { l with port := ⟨output, l.port.controller.nibble rs n⟩ } := by
  have hmem : l.backlightval ∈ [LCD_BACKLIGHT, LCD_NOBACKLIGHT] := by
    rcases h.light with hlight | hlight <;> simp [hlight]
  obtain ⟨hlow, hhigh, hwrite, hrs, hnibble, hfallen⟩ := lines n hn rs l.backlightval hmem
  refine ⟨_, hfallen, ?_⟩
  generalize UInt8.ofNat (16 * n) ||| (if rs then Rs else 0) = value at *
  simp only [write4bits, pulseEnable, expanderWrite]
  rw [Port.receive_low h.low, Port.receive_low (p := ⟨value ||| l.backlightval, _⟩) hlow,
    Port.receive_falling (p := ⟨value ||| En ||| l.backlightval, _⟩) hhigh hfallen hwrite]
  dsimp only
  rw [hrs, hnibble]

/-- **A byte of the driver is a byte for the display.** -/
theorem send_eq {l : LiquidCrystal} (h : l.Quiet) (hstep : l.port.controller.InStep)
    (value : UInt8) (rs : Bool) :
    ∃ output, output &&& En = 0 ∧
      send value (if rs then Rs else 0) l =
        { l with port := ⟨output, l.port.controller.execute rs value.toNat⟩ } := by
  have hhalves : ∀ value : UInt8, value &&& 0xf0 = UInt8.ofNat (16 * (value.toNat / 16)) ∧
      (value <<< 4) &&& 0xf0 = UInt8.ofNat (16 * (value.toNat % 16)) :=
    Bits.forall_byte (by decide +kernel)
  have hlt := value.toNat_lt
  obtain ⟨hhigh, hlow⟩ := hhalves value
  obtain ⟨output, hquiet, hfirst⟩ := write4bits_eq h (n := value.toNat / 16) (by omega) rs
  obtain ⟨output', hquiet', hsecond⟩ :=
    write4bits_eq (l := { l with port := ⟨output, l.port.controller.nibble rs (value.toNat / 16)⟩ })
      ⟨hquiet, h.light⟩ (n := value.toNat % 16) (by omega) rs
  refine ⟨output', hquiet', ?_⟩
  simp only [send]
  rw [hhigh, hlow, hfirst, hsecond]
  dsimp only
  rw [← Controller.byte, Controller.byte_eq hstep]

/-- An instruction, and a byte of data. -/
theorem command_eq {l : LiquidCrystal} (h : l.Quiet) (hstep : l.port.controller.InStep)
    (value : UInt8) :
    ∃ output, output &&& En = 0 ∧
      command value l =
        { l with port := ⟨output, l.port.controller.instruction value.toNat⟩ } :=
  send_eq h hstep value false

theorem write_eq {l : LiquidCrystal} (h : l.Quiet) (hstep : l.port.controller.InStep)
    (value : UInt8) :
    ∃ output, output &&& En = 0 ∧
      write value l = { l with port := ⟨output, l.port.controller.write value.toNat⟩ } :=
  send_eq h hstep value true

/-- The driver is quiet and the display in a state. -/
structure At (l : LiquidCrystal) (c : Controller) : Prop where
  quiet : l.Quiet
  controller : l.port.controller = c

theorem At.write4bits {l : LiquidCrystal} {c : Controller} (h : At l c) {n : Nat} (hn : n < 16) :
    At (write4bits (UInt8.ofNat (16 * n)) l) (c.nibble false n) := by
  obtain ⟨output, hlow, heq⟩ := write4bits_eq h.quiet hn false
  have hvalue :
      UInt8.ofNat (16 * n) ||| (if false = true then Rs else 0) = UInt8.ofNat (16 * n) := by
    simp
  rw [hvalue] at heq
  rw [heq]
  refine ⟨⟨hlow, h.quiet.light⟩, ?_⟩
  rw [← h.controller]

theorem At.command {l : LiquidCrystal} {c : Controller} (h : At l c) (hstep : c.InStep)
    (value : UInt8) : At (command value l) (c.instruction value.toNat) := by
  obtain ⟨hquiet, rfl⟩ := h
  obtain ⟨output, hlow, heq⟩ := command_eq hquiet hstep value
  rw [heq]
  exact ⟨⟨hlow, hquiet.light⟩, rfl⟩

theorem At.write {l : LiquidCrystal} {c : Controller} (h : At l c) (hstep : c.InStep)
    (value : UInt8) : At (write value l) (c.write value.toNat) := by
  obtain ⟨hquiet, rfl⟩ := h
  obtain ⟨output, hlow, heq⟩ := write_eq hquiet hstep value
  rw [heq]
  exact ⟨⟨hlow, hquiet.light⟩, rfl⟩

/-- The other variables do not matter. -/
theorem At.congr {l m : LiquidCrystal} {c : Controller} (h : At l c) (hport : m.port = l.port)
    (hlight : m.backlightval = l.backlightval) : At m c := by
  obtain ⟨⟨hlow, hlight'⟩, hc⟩ := h
  refine ⟨⟨?_, ?_⟩, ?_⟩
  · rw [hport]
    exact hlow
  · rw [Lit, hlight]
    exact hlight'
  · rw [hport]
    exact hc

/-! ### The functions of the class -/

theorem write4bits_rows (value : UInt8) (l : LiquidCrystal) : (write4bits value l).rows = l.rows :=
  rfl

theorem send_rows (value mode : UInt8) (l : LiquidCrystal) : (send value mode l).rows = l.rows := by
  rw [send, write4bits_rows, write4bits_rows]

theorem command_rows (value : UInt8) (l : LiquidCrystal) : (command value l).rows = l.rows :=
  send_rows value 0 l

theorem write_rows (value : UInt8) (l : LiquidCrystal) : (write value l).rows = l.rows :=
  send_rows value Rs l

theorem createChar_rows (location : UInt8) (charmap : List UInt8) (l : LiquidCrystal) :
    (createChar location charmap l).rows = l.rows := by
  have hwrites : ∀ l : LiquidCrystal, (charmap.foldl (fun l b => write b l) l).rows = l.rows := by
    induction charmap with
    | nil => exact fun _ => rfl
    | cons b charmap ih =>
      intro l
      rw [List.foldl_cons, ih, write_rows]
  rw [createChar, hwrites, command_rows]

/-- Either light leaves the display alone. -/
theorem At.light {l : LiquidCrystal} {c : Controller} (h : At l c) :
    At (backlight l) c ∧ At (noBacklight l) c := by
  obtain ⟨⟨hlow, hlight⟩, hc⟩ := h
  refine ⟨⟨⟨?_, Or.inl rfl⟩, ?_⟩, ⟨⟨?_, Or.inr rfl⟩, ?_⟩⟩
  · show (0 ||| LCD_BACKLIGHT) &&& En = 0
    decide
  · show (l.port.receive _).controller = c
    rw [Port.receive_low hlow]
    exact hc
  · show (0 ||| LCD_NOBACKLIGHT) &&& En = 0
    decide
  · show (l.port.receive _).controller = c
    rw [Port.receive_low hlow]
    exact hc

theorem At.clear {l : LiquidCrystal} {c : Controller} (h : At l c) (hstep : c.InStep) :
    At (clear l) (c.instruction 1) := h.command hstep 0x01

/-- The place of a column and a line. -/
theorem At.setCursor {l : LiquidCrystal} {c : Controller} (h : At l c) (hstep : c.InStep)
    (hrows : l.rows = 2) {col row : Nat} (hcol : col < 40) (hrow : row < 2) :
    At (setCursor (UInt8.ofNat col) (UInt8.ofNat row) l)
      (c.instruction (128 + (row * 64 + col))) := by
  have hvalue : ∀ row < 2, ∀ col < 40,
      ¬ UInt8.ofNat row > 2 ∧ (UInt8.ofNat (0x80 ||| ((UInt8.ofNat col).toNat +
        row_offsets.getD (UInt8.ofNat row).toNat 0))).toNat = 128 + (row * 64 + col) := by
    decide +kernel
  obtain ⟨hsmall, haddress⟩ := hvalue row hrow col hcol
  have hcommand := h.command hstep (UInt8.ofNat (0x80 ||| ((UInt8.ofNat col).toNat +
    row_offsets.getD (UInt8.ofNat row).toNat 0)))
  rw [haddress] at hcommand
  rw [LiquidCrystal.setCursor, hrows, if_neg hsmall]
  exact hcommand

/-- Any column and line set some address. -/
theorem At.exists_setCursor {l : LiquidCrystal} {c : Controller} (h : At l c) (hstep : c.InStep)
    (col row : UInt8) : ∃ b ≥ 128, At (LiquidCrystal.setCursor col row l) (c.instruction b) := by
  have hvalue : ∀ col < 256, ∀ offset ∈ [0x00, 0x40, 0x14, 0x54],
      128 ≤ (UInt8.ofNat (0x80 ||| (col + offset))).toNat := by
    decide +kernel
  have hoffset : ∀ row, row_offsets.getD row 0 ∈ [0x00, 0x40, 0x14, 0x54] := by
    intro row
    rcases row with _ | _ | _ | _ | row <;> simp [row_offsets]
  exact ⟨_, hvalue col.toNat col.toNat_lt _ (hoffset _), h.command hstep _⟩

/-- **`createChar` draws into a slot.** -/
theorem At.createChar {l : LiquidCrystal} {c : Controller} (h : At l c) (hr : c.Ready) {slot : Nat}
    (hslot : slot < 8) (charmap : List UInt8) :
    At (createChar (UInt8.ofNat slot) charmap l) (c.draw slot (charmap.map UInt8.toNat)) := by
  have hwrites : ∀ {l : LiquidCrystal} {c : Controller}, At l c → c.Ready →
      At (charmap.foldl (fun l b => LiquidCrystal.write b l) l)
        ((charmap.map UInt8.toNat).foldl (fun c b => c.write b) c) := by
    induction charmap with
    | nil => exact fun h _ => h
    | cons b charmap ih =>
      intro l c h hr
      rw [List.map_cons, List.foldl_cons, List.foldl_cons]
      exact ih (h.write hr.inStep b) (hr.write b.toNat)
  have hvalue : ∀ slot < 8,
      ((0x40 : UInt8) ||| ((UInt8.ofNat slot &&& 0x7) <<< (3 : UInt8))).toNat = 64 + 8 * slot := by
    decide
  have hcommand := h.command hr.inStep
    ((0x40 : UInt8) ||| ((UInt8.ofNat slot &&& 0x7) <<< (3 : UInt8)))
  rw [hvalue slot hslot] at hcommand
  rw [LiquidCrystal.createChar, Controller.draw]
  exact hwrites hcommand (hr.address (by omega))

/-! ### The start -/

theorem begin4bits_at (l : LiquidCrystal) (hlight : l.Lit) :
    ∃ c, c.InStep ∧ At (begin4bits l) c := by
  -- the first byte leaves the display in some state, but `En` low
  have h1 : At (expanderWrite l.backlightval l) (l.port.receive l.backlightval).controller := by
    refine ⟨⟨?_, hlight⟩, ?_⟩
    · show (l.backlightval ||| l.backlightval) &&& En = 0
      rcases hlight with hon | hoff
      · rw [hon]
        rfl
      · rw [hoff]
        rfl
    · show (l.port.receive (l.backlightval ||| l.backlightval)).controller = _
      rw [UInt8.or_self]
  have h2 := h1.write4bits (n := 3) (by decide)
  have h3 := h2.write4bits (n := 3) (by decide)
  have h4 := h3.write4bits (n := 3) (by decide)
  have h5 := h4.write4bits (n := 2) (by decide)
  exact ⟨_, Controller.synchronise _, h5⟩

theorem At.display {l : LiquidCrystal} {c : Controller} (h : At l c) (hstep : c.InStep)
    (hcontrol : l.displaycontrol = 0x04) : At (display l) (c.instruction 0x0C) := by
  have hon := h.congr (m := { l with displaycontrol := l.displaycontrol ||| 0x04 }) rfl rfl
  have hvalue : (0x08 ||| (l.displaycontrol ||| 0x04)).toNat = 0x0C := by
    rw [hcontrol]
    rfl
  have hcommand := hon.command hstep (0x08 ||| (l.displaycontrol ||| 0x04))
  rw [hvalue] at hcommand
  exact hcommand

theorem beginModes_at {l : LiquidCrystal} {c : Controller} (h : At l c) (hstep : c.InStep)
    (hfunction : l.displayfunction = 0x08) : ∃ c, At (beginModes l) c ∧ Shows c .blank := by
  obtain ⟨hstep1, hstep2, hstep3, hstep4, hshows⟩ := shows_start hstep
  have hvalue : (0x20 ||| l.displayfunction).toNat = 0x28 := by
    rw [hfunction]
    rfl
  have h1 := h.command hstep (0x20 ||| l.displayfunction)
  rw [hvalue] at h1
  unfold beginModes
  generalize command (0x20 ||| l.displayfunction) l = l1 at *
  have h2 := (h1.congr (m := { l1 with displaycontrol := 0x04 }) rfl rfl).display hstep1 rfl
  dsimp only
  generalize LiquidCrystal.display { l1 with displaycontrol := 0x04 } = l2 at *
  have h3 : At (clear l2) _ := h2.command hstep2 0x01
  generalize clear l2 = l3 at *
  have h4 := (h3.congr (m := { l3 with displaymode := 0x02 }) rfl rfl).command hstep3
    (0x04 ||| 0x02)
  exact ⟨_, h4.command hstep4 0x02, hshows⟩

/-- **From any state to a blank page.**  A reset of the board does not reset the
display: it may be in either mode, between two halves of a byte, and hold any text. -/
theorem begin_shows (l : LiquidCrystal) (hlight : l.Lit) (hrows : l.rows = 2) :
    ∃ c, At (begin l) c ∧ Shows c .blank := by
  have hfunction : beginFunction l = 0x08 := by
    unfold beginFunction
    rw [hrows, if_neg (fun h => absurd h.2 (by decide))]
    rfl
  obtain ⟨c, hstep, h⟩ := begin4bits_at { l with displayfunction := beginFunction l } hlight
  exact beginModes_at h hstep hfunction

theorem begin_rows (l : LiquidCrystal) : (begin l).rows = l.rows := by
  have hmodes : ∀ l : LiquidCrystal, (beginModes l).rows = l.rows := by
    intro l
    unfold beginModes home clear display
    simp only [command_rows]
  have hfour : ∀ l : LiquidCrystal, (begin4bits l).rows = l.rows := by
    intro l
    unfold begin4bits
    simp only [write4bits_rows]
    rfl
  rw [begin, hmodes, hfour]

/-! ### Codes -/

/-- Codes that are written put their glyphs. -/
theorem At.foldl_write {codes : List UInt8} (hcodes : ∀ b ∈ codes, 16 ≤ b.toNat) {l : LiquidCrystal}
    {c : Controller} {t : Terminal} (h : At l c) (hshows : Shows c t) :
    ∃ c, At (codes.foldl (fun l b => LiquidCrystal.write b l) l) c ∧
      Shows c (t.puts (codes.map fun b => .rom b.toNat)) := by
  induction codes generalizing l c t with
  | nil => exact ⟨c, h, hshows⟩
  | cons b codes ih =>
    have hglyph : c.glyph b.toNat = .rom b.toNat := by
      have hown := hcodes b (List.mem_cons_self ..)
      rw [Controller.glyph, if_neg (by omega)]
    have hput := hshows.write b.toNat
    rw [hglyph] at hput
    exact ih (fun x hx => hcodes x (List.mem_cons_of_mem b hx)) (h.write hshows.ready.inStep b) hput

/-- **From any state to a text.**  Whatever state the display was left in, the
codes that are written after the start stand where they should, and nothing else
is to be seen. -/
theorem begin_written (p : Port) (row n : Nat) (hrow : row < 2) (hn : n < 40) (codes : List UInt8)
    (hcodes : ∀ b ∈ codes, 16 ≤ b.toNat) (hroom : n + codes.length ≤ 40) (line : Nat)
    {col : Nat} (hcol : col < 40) :
    (codes.foldl (fun l b => write b l)
        (setCursor (UInt8.ofNat n) (UInt8.ofNat row) (begin (new 2 p)))).port.controller.visible
        line col =
      some (.rom (if line = row ∧ n ≤ col then codes.getD (col - n) 0x20 else 0x20).toNat) := by
  obtain ⟨c, hat, hblank⟩ := begin_shows (new 2 p) (Or.inl rfl) rfl
  have hgoto := hat.setCursor hblank.ready.inStep (begin_rows (new 2 p)) hn hrow
  obtain ⟨c', hat', hshows⟩ :=
    hgoto.foldl_write hcodes (hblank.goto (show row * 64 + n < 128 by omega))
  have hcells := Terminal.puts_cells row n hrow (codes.map fun b => .rom b.toNat)
    (by rw [List.length_map]; exact hroom) (t := Terminal.blank.goto (row * 64 + n)) rfl
    (line * 64 + col)
  rw [List.length_map] at hcells
  rw [hat'.controller, hshows.visible line hcol, hcells]
  by_cases hin : line = row ∧ n ≤ col ∧ col < n + codes.length
  · obtain ⟨rfl, hlo, hhi⟩ := hin
    rw [if_pos (by omega), if_pos ⟨rfl, hlo⟩,
      show line * 64 + col - (line * 64 + n) = col - n by omega]
    exact congrArg some (List.getD_map codes 0x20 (fun b : UInt8 => Glyph.rom b.toNat))
  · rw [if_neg (by omega)]
    split_ifs with hafter
    · obtain ⟨rfl, hlo⟩ := hafter
      rw [List.getD_eq_default _ _ (by omega)]
      rfl
    · rfl

/-- Left between the two halves of a byte, with the text shifted and one line only. -/
def confused : Port where
  output := 0xFF
  controller :=
    { eightBit := false, pending := some 7, floating := 5, twoLines := false, displayOn := false
      increment := false, entryShift := true, shift := 13, inCgram := true, address := 61
      ddram := fun _ => 3, cgram := fun _ => 31 }

theorem begin_written_two :
    (List.foldl (fun l b => write b l) (setCursor 5 1 (begin (new 2 confused)))
        [0x48, 0x69]).port.controller.visible 1 6 = some (.rom 0x69) :=
  begin_written confused 1 5 (by decide) (by decide) [0x48, 0x69] (by simp) (by decide) 1
    (by decide)

end LiquidCrystal

end Polivunator.Lcd
