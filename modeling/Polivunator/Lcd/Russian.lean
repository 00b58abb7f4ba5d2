import Polivunator.Arduino.WString
import Polivunator.Lcd.LiquidCrystal

/-!
# Russian letters

The display has no letters but Latin ones, and room for eight glyphs.
`LCD_1602_RUS` prints a letter that looks like a Latin one as that, and draws
any other into the next of the eight slots when it is first printed.  After the
eighth it forgets them all and starts again with the first slot, whose letter
may still be on the display.

`letters_utf8` says that the class takes the texts of the program apart into
their letters again.
-/

namespace Polivunator.Lcd

open Hd44780

/-! ### The letters -/

/-- The letters that are drawn, and how. -/
def rus : Nat → Option (List UInt8)
  | 1041 => some [0b11111, 0b10000, 0b10000, 0b11110, 0b10001, 0b10001, 0b11110, 0b00000]
  | 1043 => some [0b11111, 0b10000, 0b10000, 0b10000, 0b10000, 0b10000, 0b10000, 0b00000]
  | 1044 => some [0b00110, 0b01010, 0b01010, 0b01010, 0b01010, 0b01010, 0b11111, 0b10001]
  | 1046 => some [0b10101, 0b10101, 0b10101, 0b01110, 0b10101, 0b10101, 0b10101, 0b00000]
  | 1047 => some [0b01110, 0b10001, 0b00001, 0b00110, 0b00001, 0b10001, 0b01110, 0b00000]
  | 1048 => some [0b10001, 0b10001, 0b10001, 0b10011, 0b10101, 0b11001, 0b10001, 0b00000]
  | 1049 => some [0b10101, 0b10001, 0b10001, 0b10011, 0b10101, 0b11001, 0b10001, 0b00000]
  | 1051 => some [0b00111, 0b01001, 0b01001, 0b01001, 0b01001, 0b01001, 0b10001, 0b00000]
  | 1055 => some [0b11111, 0b10001, 0b10001, 0b10001, 0b10001, 0b10001, 0b10001, 0b00000]
  | 1059 => some [0b10001, 0b10001, 0b10001, 0b01111, 0b00001, 0b10001, 0b01110, 0b00000]
  | 1060 => some [0b00100, 0b01110, 0b10101, 0b10101, 0b10101, 0b01110, 0b00100, 0b00000]
  | 1062 => some [0b10010, 0b10010, 0b10010, 0b10010, 0b10010, 0b10010, 0b11111, 0b00001]
  | 1063 => some [0b10001, 0b10001, 0b10001, 0b01111, 0b00001, 0b00001, 0b00001, 0b00000]
  | 1064 => some [0b10001, 0b10001, 0b10001, 0b10101, 0b10101, 0b10101, 0b11111, 0b00000]
  | 1065 => some [0b10001, 0b10001, 0b10001, 0b10101, 0b10101, 0b10101, 0b11111, 0b00001]
  | 1066 => some [0b11000, 0b01000, 0b01000, 0b01110, 0b01001, 0b01001, 0b01110, 0b00000]
  | 1067 => some [0b10001, 0b10001, 0b10001, 0b11101, 0b10011, 0b10011, 0b11101, 0b00000]
  | 1068 => some [0b10000, 0b10000, 0b10000, 0b11110, 0b10001, 0b10001, 0b11110, 0b00000]
  | 1069 => some [0b01110, 0b10001, 0b00001, 0b00111, 0b00001, 0b10001, 0b01110, 0b00000]
  | 1070 => some [0b10010, 0b10101, 0b10101, 0b11101, 0b10101, 0b10101, 0b10010, 0b00000]
  | 1071 => some [0b01111, 0b10001, 0b10001, 0b01111, 0b00101, 0b01001, 0b10001, 0b00000]
  | 1073 => some [0b00011, 0b01100, 0b10000, 0b11110, 0b10001, 0b10001, 0b01110, 0b00000]
  | 1074 => some [0b00000, 0b00000, 0b11110, 0b10001, 0b11110, 0b10001, 0b11110, 0b00000]
  | 1075 => some [0b00000, 0b00000, 0b11110, 0b10000, 0b10000, 0b10000, 0b10000, 0b00000]
  | 1076 => some [0b00000, 0b00000, 0b00110, 0b01010, 0b01010, 0b01010, 0b11111, 0b10001]
  | 1105 => some [0b01010, 0b00000, 0b01110, 0b10001, 0b11111, 0b10000, 0b01111, 0b00000]
  | 1078 => some [0b00000, 0b00000, 0b10101, 0b10101, 0b01110, 0b10101, 0b10101, 0b00000]
  | 1079 => some [0b00000, 0b00000, 0b01110, 0b10001, 0b00110, 0b10001, 0b01110, 0b00000]
  | 1080 => some [0b00000, 0b00000, 0b10001, 0b10011, 0b10101, 0b11001, 0b10001, 0b00000]
  | 1081 => some [0b01010, 0b00100, 0b10001, 0b10011, 0b10101, 0b11001, 0b10001, 0b00000]
  | 1082 => some [0b00000, 0b00000, 0b10010, 0b10100, 0b11000, 0b10100, 0b10010, 0b00000]
  | 1083 => some [0b00000, 0b00000, 0b00111, 0b01001, 0b01001, 0b01001, 0b10001, 0b00000]
  | 1084 => some [0b00000, 0b00000, 0b10001, 0b11011, 0b10101, 0b10001, 0b10001, 0b00000]
  | 1085 => some [0b00000, 0b00000, 0b10001, 0b10001, 0b11111, 0b10001, 0b10001, 0b00000]
  | 1087 => some [0b00000, 0b00000, 0b11111, 0b10001, 0b10001, 0b10001, 0b10001, 0b00000]
  | 1090 => some [0b00000, 0b00000, 0b11111, 0b00100, 0b00100, 0b00100, 0b00100, 0b00000]
  | 1092 => some [0b00000, 0b00000, 0b00100, 0b01110, 0b10101, 0b01110, 0b00100, 0b00000]
  | 1094 => some [0b00000, 0b00000, 0b10010, 0b10010, 0b10010, 0b10010, 0b11111, 0b00001]
  | 1095 => some [0b00000, 0b00000, 0b10001, 0b10001, 0b01111, 0b00001, 0b00001, 0b00000]
  | 1096 => some [0b00000, 0b00000, 0b10101, 0b10101, 0b10101, 0b10101, 0b11111, 0b00000]
  | 1097 => some [0b00000, 0b00000, 0b10101, 0b10101, 0b10101, 0b10101, 0b11111, 0b00001]
  | 1098 => some [0b00000, 0b00000, 0b11000, 0b01000, 0b01110, 0b01001, 0b01110, 0b00000]
  | 1099 => some [0b00000, 0b00000, 0b10001, 0b10001, 0b11101, 0b10011, 0b11101, 0b00000]
  | 1100 => some [0b00000, 0b00000, 0b10000, 0b10000, 0b11110, 0b10001, 0b11110, 0b00000]
  | 1101 => some [0b00000, 0b00000, 0b01110, 0b10001, 0b00111, 0b10001, 0b01110, 0b00000]
  | 1102 => some [0b00000, 0b00000, 0b10010, 0b10101, 0b11101, 0b10101, 0b10010, 0b00000]
  | 1103 => some [0b00000, 0b00000, 0b01111, 0b10001, 0b01111, 0b00101, 0b01001, 0b00000]
  | _ => none

/-- The letters that look like Latin ones. -/
def latin : Nat → Option Char
  | 1040 => some 'A'
  | 1042 => some 'B'
  | 1045 => some 'E'
  | 1025 => some 'E'
  | 1050 => some 'K'
  | 1052 => some 'M'
  | 1053 => some 'H'
  | 1054 => some 'O'
  | 1056 => some 'P'
  | 1057 => some 'C'
  | 1058 => some 'T'
  | 1061 => some 'X'
  | 1072 => some 'a'
  | 1077 => some 'e'
  | 1086 => some 'o'
  | 1088 => some 'p'
  | 1089 => some 'c'
  | 1091 => some 'y'
  | 1093 => some 'x'
  | _ => none

/-- The code that is written for a letter that is not drawn. -/
def code (chr : Nat) : UInt8 :=
  match latin chr with
  | some c => UInt8.ofNat c.toNat
  | none => if chr = 0x00B0 then 223 else UInt8.ofNat chr

/-! ### The class -/

/-- `LCD_1602_RUS`, with the variables `index_rus_…` by the letters they are of. -/
structure Lcd1602Rus where
  liquid : LiquidCrystal
  max_symbol_count : Nat
  symbol_index : Nat
  cursor_col : UInt8
  cursor_row : UInt8
  index : Nat → UInt8

namespace Lcd1602Rus

/-- `LCD_1602_RUS(lcd_Addr, lcd_cols, lcd_rows)`, without symbols of the user's own. -/
def new (lcd_rows : UInt8) (p : Port) : Lcd1602Rus where
  liquid := .new lcd_rows p
  max_symbol_count := 8
  symbol_index := 0
  cursor_col := 0
  cursor_row := 0
  index _ := 255

/-- `ResetAllIndex()`. -/
def resetAllIndex (l : Lcd1602Rus) : Lcd1602Rus :=
  { l with symbol_index := 0, index := fun _ => 255 }

/-- `clear()`. -/
def clear (l : Lcd1602Rus) : Lcd1602Rus := resetAllIndex { l with liquid := l.liquid.clear }

/-- `setCursor(col, row)`. -/
def setCursor (col row : UInt8) (l : Lcd1602Rus) : Lcd1602Rus :=
  { l with cursor_col := col, cursor_row := row, liquid := l.liquid.setCursor col row }

/-- `write(value)`, which is that of the base class. -/
def write (value : UInt8) (l : Lcd1602Rus) : Lcd1602Rus := { l with liquid := l.liquid.write value }

/-- `CharSetToLCD(array, index)`, for the letter `chr`. -/
def charSetToLCD (array : List UInt8) (chr : Nat) (l : Lcd1602Rus) : Lcd1602Rus :=
  if l.index chr = 255 then
    let x := l.cursor_col
    let y := l.cursor_row
    let l := { l with liquid := l.liquid.createChar (UInt8.ofNat l.symbol_index) array }
    let l := setCursor x y l
    let l := write (UInt8.ofNat l.symbol_index) l
    let l := { l with
      index := Function.update l.index chr (UInt8.ofNat l.symbol_index)
      symbol_index := l.symbol_index + 1 }
    if l.symbol_index ≥ l.max_symbol_count then resetAllIndex l else l
  else write (l.index chr) l

/-- `printwc(_chr)`. -/
def printwc (chr : Nat) (l : Lcd1602Rus) : Lcd1602Rus :=
  match rus chr with
  | some rows => charSetToLCD rows chr l
  | none => write (code chr) l

/-- `mbtowc(_chr, _str, 2)`: the letter and how many bytes it takes.  Letters have
sixteen bits, and a byte that is none by itself is taken for a negative number. -/
def mbtowc (b0 b1 : UInt8) : Nat × Nat :=
  if b0 &&& 0xC0 = 0xC0 ∧ b1 &&& 0x80 = 0x80 then
    ((b0 &&& 0x1F).toNat * 64 + (b1 &&& 0x3F).toNat, 2)
  else (if b0 < 0x80 then b0.toNat else 0xFF00 + b0.toNat, 1)

/-- The letters of a string of bytes, which a zero follows. -/
def letters : List UInt8 → List Nat
  | [] => []
  | [b0] => [(mbtowc b0 0).1]
  | b0 :: b1 :: bs =>
    if (mbtowc b0 b1).2 = 2 then (mbtowc b0 b1).1 :: letters bs
    else (mbtowc b0 b1).1 :: letters (b1 :: bs)

/-- One turn of the loop in `print`. -/
def printStep (chr : Nat) (l : Lcd1602Rus) : Lcd1602Rus :=
  let l := printwc chr l
  { l with cursor_col := l.cursor_col + 1 }

/-- `print(str)`. -/
def print (str : List UInt8) (l : Lcd1602Rus) : Lcd1602Rus :=
  (letters str).foldl (fun l chr => printStep chr l) l

end Lcd1602Rus

/-! ### Bytes and letters -/

/-- The bytes of a text in the program. -/
def utf8 (text : WString) : List UInt8 := text.flatMap String.utf8EncodeChar

namespace Lcd1602Rus

theorem mbtowc_ascii {b0 : UInt8} (h : b0 < 0x80) (b1 : UInt8) : mbtowc b0 b1 = (b0.toNat, 1) := by
  have hplain : ∀ b0 : UInt8, b0 < 0x80 → ¬ (b0 &&& 0xC0 = 0xC0) :=
    Bits.forall_byte (by decide +kernel)
  rw [mbtowc, if_neg (fun hc => hplain b0 h hc.1), if_pos h]

theorem letters_ascii {b0 : UInt8} (h : b0 < 0x80) (bs : List UInt8) :
    letters (b0 :: bs) = b0.toNat :: letters bs := by
  cases bs with
  | nil =>
    show [(mbtowc b0 0).1] = [b0.toNat]
    rw [mbtowc_ascii h]
  | cons b1 bs =>
    rw [letters, mbtowc_ascii h]
    rfl

/-- A letter of two bytes. -/
theorem mbtowc_two {v : Nat} (hv : v < 0x800) :
    mbtowc ((UInt32.ofNat v >>> 6).toUInt8 &&& 0x1f ||| 0xc0)
      ((UInt32.ofNat v).toUInt8 &&& 0x3f ||| 0x80) = (v, 2) := by
  have hhigh : ∀ b : UInt8, (b &&& 0x1f ||| 0xc0) &&& 0xC0 = 0xC0 ∧
      ((b &&& 0x1f ||| 0xc0) &&& 0x1F).toNat = b.toNat % 32 :=
    Bits.forall_byte (by decide +kernel)
  have hlow : ∀ b : UInt8, (b &&& 0x3f ||| 0x80) &&& 0x80 = 0x80 ∧
      ((b &&& 0x3f ||| 0x80) &&& 0x3F).toNat = b.toNat % 64 :=
    Bits.forall_byte (by decide +kernel)
  have hval : (UInt32.ofNat v).toNat = v :=
    UInt32.toNat_ofNat_of_lt (Nat.lt_trans hv (by decide))
  have hb0 : (UInt32.ofNat v >>> 6).toUInt8.toNat = v / 64 % 256 := by
    rw [UInt32.toNat_toUInt8, UInt32.toNat_shiftRight, hval, Nat.shiftRight_eq_div_pow]
    rfl
  have hb1 : (UInt32.ofNat v).toUInt8.toNat = v % 256 := by
    rw [UInt32.toNat_toUInt8, hval]
  obtain ⟨hlead, hleadval⟩ := hhigh (UInt32.ofNat v >>> 6).toUInt8
  obtain ⟨htail, htailval⟩ := hlow (UInt32.ofNat v).toUInt8
  rw [mbtowc, if_pos ⟨hlead, htail⟩, hleadval, htailval, hb0, hb1]
  refine Prod.ext ?_ rfl
  show v / 64 % 256 % 32 * 64 + v % 256 % 64 = v
  omega

/-- **The letters come back from their bytes.** -/
theorem letters_utf8 {text : WString} (h : ∀ c ∈ text, c.toNat < 0x800) :
    letters (utf8 text) = text.map Char.toNat := by
  induction text with
  | nil => rfl
  | cons c text ih =>
    have hc := h c (List.mem_cons_self ..)
    have hrest := ih (fun x hx => h x (List.mem_cons_of_mem c hx))
    have hval : UInt32.ofNat c.toNat = c.val := UInt32.ofNat_toNat
    rw [utf8, List.flatMap_cons, ← utf8, List.map_cons, ← hrest]
    rcases Nat.lt_or_ge c.toNat 0x80 with hascii | htwo
    · have hsize : c.utf8Size = 1 := by
        have hle : c.val ≤ 0x7f := UInt32.le_iff_toNat_le.mpr (show c.toNat ≤ 127 by omega)
        exact if_pos hle
      have hbyte : c.val.toUInt8.toNat = c.toNat := by
        rw [UInt32.toNat_toUInt8]
        exact Nat.mod_eq_of_lt (show c.toNat < 256 by omega)
      rw [String.utf8EncodeChar_eq_singleton hsize, List.singleton_append, letters_ascii, hbyte]
      rw [UInt8.lt_iff_toNat_lt, hbyte]
      exact hascii
    · have hsize : c.utf8Size = 2 := by
        have hle : c.val ≤ 0x7ff := UInt32.le_iff_toNat_le.mpr (show c.toNat ≤ 2047 by omega)
        have hgt : ¬ c.val ≤ 0x7f := by
          intro hc'
          have hle' : c.toNat ≤ 127 := UInt32.le_iff_toNat_le.mp hc'
          omega
        exact (if_neg hgt).trans (if_pos hle)
      have hletter := mbtowc_two hc
      rw [hval] at hletter
      rw [String.utf8EncodeChar_eq_cons_cons hsize, List.cons_append, List.singleton_append,
        letters, hletter]
      rfl

end Lcd1602Rus

end Polivunator.Lcd
