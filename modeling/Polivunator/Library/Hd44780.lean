import Mathlib.Data.List.GetD
import Mathlib.Logic.Function.Basic
import Mathlib.Tactic.SplitIfs

/-!
# A character display

The controller of the usual character displays: what its instructions do, and
how bytes reach it over eight lines or, in two halves, over four.

Someone who starts to talk to it may find it in either mode, and even between
the two halves of a byte.  `synchronise` says that three threes and a two lead
out of every such state.  From there on `byte_eq` lets one speak of whole bytes.

What is seen is a `Glyph` per place.  The codes from 16 on stand for glyphs of
the display's own, the first ones for glyphs drawn into eight slots, and a
change of a slot changes what is seen wherever its code stands.
-/

namespace Hd44780

/-- What is seen in one place. -/
inductive Glyph
  | rom (code : Nat)
  | drawn (rows : List Nat)
  deriving DecidableEq

structure Controller where
  eightBit : Bool
  /-- The first half of a byte. -/
  pending : Option Nat
  /-- What the four lines read that are not connected. -/
  floating : Nat
  twoLines : Bool
  displayOn : Bool
  increment : Bool
  entryShift : Bool
  /-- How far the text is shifted. -/
  shift : Nat
  inCgram : Bool
  address : Nat
  ddram : Nat → Nat
  cgram : Nat → Nat

/-- The place after another on a display of two lines of forty. -/
def after (address : Nat) : Nat :=
  if address = 0x27 then 0x40 else if address = 0x67 then 0 else (address + 1) % 128

namespace Controller

/-! ### The controller -/

/-- The next address upwards. -/
def up (c : Controller) : Nat :=
  if c.inCgram then (c.address + 1) % 64
  else if c.twoLines then after c.address
  else if c.address = 0x4F then 0 else (c.address + 1) % 128

/-- The next address downwards. -/
def down (c : Controller) : Nat :=
  if c.inCgram then (c.address + 63) % 64
  else if c.twoLines then
    if c.address = 0x40 then 0x27 else if c.address = 0 then 0x67 else (c.address + 127) % 128
  else if c.address = 0 then 0x4F else (c.address + 127) % 128

/-- A byte of data. -/
def write (b : Nat) (c : Controller) : Controller :=
  if c.inCgram then
    { c with
      cgram := Function.update c.cgram (c.address % 64) b
      address := if c.increment then c.up else c.down }
  else
    { c with
      ddram := Function.update c.ddram c.address b
      address := if c.increment then c.up else c.down
      shift := if c.entryShift then (c.shift + if c.increment then 1 else 39) % 40 else c.shift }

/-- An instruction: the first bit that is set says which. -/
def instruction (b : Nat) (c : Controller) : Controller :=
  if b ≥ 128 then { c with inCgram := false, address := b % 128 }
  else if b ≥ 64 then { c with inCgram := true, address := b % 64 }
  else if b ≥ 32 then { c with eightBit := b / 16 % 2 = 1, twoLines := b / 8 % 2 = 1 }
  else if b ≥ 16 then
    if b / 8 % 2 = 1 then { c with shift := (c.shift + if b / 4 % 2 = 1 then 39 else 1) % 40 }
    else { c with address := if b / 4 % 2 = 1 then c.up else c.down }
  else if b ≥ 8 then { c with displayOn := b / 4 % 2 = 1 }
  else if b ≥ 4 then { c with increment := b / 2 % 2 = 1, entryShift := b % 2 = 1 }
  else if b ≥ 2 then { c with inCgram := false, address := 0, shift := 0 }
  else if b = 1 then
    { c with ddram := fun _ => 0x20, inCgram := false, address := 0, shift := 0, increment := true }
  else c

/-- A byte of data or an instruction. -/
def execute (rs : Bool) (b : Nat) (c : Controller) : Controller :=
  if rs then c.write b else c.instruction b

/-- What the upper four lines bring. -/
def nibble (rs : Bool) (n : Nat) (c : Controller) : Controller :=
  if c.eightBit then execute rs (16 * n + c.floating % 16) { c with pending := none }
  else
    match c.pending with
    | none => { c with pending := some n }
    | some h => execute rs (16 * h + n) { c with pending := none }

/-- A byte in two halves. -/
def byte (rs : Bool) (b : Nat) (c : Controller) : Controller :=
  (c.nibble rs (b / 16)).nibble rs (b % 16)

/-! ### Falling into step -/

/-- Four lines, and no half of a byte has come. -/
def InStep (c : Controller) : Prop := c.eightBit = false ∧ c.pending = none

@[simp] theorem write_pending (b : Nat) (c : Controller) : (c.write b).pending = c.pending := by
  unfold write
  split_ifs <;> rfl

@[simp] theorem instruction_pending (b : Nat) (c : Controller) :
    (c.instruction b).pending = c.pending := by
  unfold instruction
  split_ifs <;> rfl

/-- The three kinds of instructions whose first bit is one of the upper three. -/
theorem instruction_address {b : Nat} (h : 128 ≤ b) (c : Controller) :
    c.instruction b = { c with inCgram := false, address := b % 128 } := by
  rw [instruction, if_pos h]

theorem instruction_cgram {b : Nat} (h : 64 ≤ b) (h' : b < 128) (c : Controller) :
    c.instruction b = { c with inCgram := true, address := b % 64 } := by
  rw [instruction, if_neg (by omega), if_pos h]

theorem instruction_function {b : Nat} (h : 32 ≤ b) (h' : b < 64) (c : Controller) :
    c.instruction b = { c with eightBit := b / 16 % 2 = 1, twoLines := b / 8 % 2 = 1 } := by
  rw [instruction, if_neg (by omega), if_neg (by omega), if_pos h]

@[simp] theorem execute_pending (rs : Bool) (b : Nat) (c : Controller) :
    (c.execute rs b).pending = c.pending := by
  unfold execute
  split_ifs <;> simp

/-- **A byte in two halves is one byte.** -/
theorem byte_eq {c : Controller} (h : c.InStep) (rs : Bool) (b : Nat) :
    c.byte rs b = c.execute rs b := by
  obtain ⟨eightBit, pending⟩ := c
  obtain ⟨hlines, hpending⟩ := h
  simp only at hlines hpending
  subst hlines hpending
  simp [byte, nibble, Nat.div_add_mod]

/-- The three on eight lines keeps to them, the two leaves them. -/
theorem nibble_of_eightBit {c : Controller} (h : c.eightBit = true) :
    (c.nibble false 3).eightBit = true ∧ (c.nibble false 2).InStep := by
  have hfloat := Nat.mod_lt c.floating (show 0 < 16 by decide)
  constructor
  · rw [nibble, if_pos h, execute, if_neg (by decide), instruction_function (by omega) (by omega)]
    dsimp only
    rw [decide_eq_true_eq]
    omega
  · rw [nibble, if_pos h, execute, if_neg (by decide), instruction_function (by omega) (by omega)]
    refine ⟨?_, rfl⟩
    dsimp only
    rw [decide_eq_false_iff_not]
    omega

/-- Two threes in step are the byte that goes over to eight lines. -/
theorem nibble_nibble_of_inStep {c : Controller} (h : c.InStep) :
    ((c.nibble false 3).nibble false 3).eightBit = true := by
  have hbyte : (c.nibble false 3).nibble false 3 = c.byte false 0x33 := rfl
  rw [hbyte, byte_eq h, execute, if_neg (by decide),
    instruction_function (by decide) (by decide)]
  rfl

/-- A three ends the byte that had been begun. -/
theorem nibble_of_pending {c : Controller} (h : c.eightBit = false) (hp : c.pending ≠ none) :
    (c.nibble false 3).pending = none := by
  obtain ⟨n, hn⟩ := Option.ne_none_iff_exists'.mp hp
  rw [nibble, if_neg (by rw [h]; decide), hn]
  simp

/-- **Three threes and a two**: afterwards the controller is in step, whatever
state it was in. -/
theorem synchronise (c : Controller) :
    ((((c.nibble false 3).nibble false 3).nibble false 3).nibble false 2).InStep := by
  have hstart : ∀ {c : Controller}, c.eightBit = true →
      ((((c.nibble false 3).nibble false 3).nibble false 3).nibble false 2).InStep := by
    intro c h
    have h1 := (nibble_of_eightBit h).1
    have h2 := (nibble_of_eightBit h1).1
    have h3 := (nibble_of_eightBit h2).1
    exact (nibble_of_eightBit h3).2
  have hstep : ∀ {c : Controller}, c.InStep →
      (((c.nibble false 3).nibble false 3).nibble false 2).InStep ∧
      ((((c.nibble false 3).nibble false 3).nibble false 3).nibble false 2).InStep := by
    intro c h
    have h2 := nibble_nibble_of_inStep h
    have h3 := (nibble_of_eightBit h2).1
    exact ⟨(nibble_of_eightBit h2).2, (nibble_of_eightBit h3).2⟩
  rcases Bool.eq_false_or_eq_true c.eightBit with height | hfour
  · exact hstart height
  · by_cases hp : c.pending = none
    · exact (hstep ⟨hfour, hp⟩).2
    · have hnone := nibble_of_pending hfour hp
      rcases Bool.eq_false_or_eq_true (c.nibble false 3).eightBit with height | hfour'
      · have h2 := (nibble_of_eightBit height).1
        have h3 := (nibble_of_eightBit h2).1
        exact (nibble_of_eightBit h3).2
      · exact (hstep ⟨hfour', hnone⟩).1

/-! ### Ready for text -/

/-- The modes in which text is written from left to right on two lines. -/
structure Ready (c : Controller) : Prop where
  inStep : c.InStep
  twoLines : c.twoLines = true
  displayOn : c.displayOn = true
  increment : c.increment = true
  entryShift : c.entryShift = false
  shift : c.shift = 0

theorem Ready.write_text {c : Controller} (h : c.Ready) (ht : c.inCgram = false) (b : Nat) :
    c.write b =
      { c with ddram := Function.update c.ddram c.address b, address := after c.address } := by
  have htext : ¬ c.inCgram = true := by
    rw [ht]
    decide
  have hup : c.up = after c.address := by rw [up, if_neg htext, if_pos h.twoLines]
  have hentry : ¬ c.entryShift = true := by
    rw [h.entryShift]
    decide
  rw [Controller.write, if_neg htext, if_neg hentry, if_pos h.increment, hup]

theorem Ready.write_cgram {c : Controller} (h : c.Ready) (hin : c.inCgram = true) (b : Nat) :
    c.write b =
      { c with
        cgram := Function.update c.cgram (c.address % 64) b
        address := (c.address + 1) % 64 } := by
  have hup : c.up = (c.address + 1) % 64 := by rw [up, if_pos hin]
  rw [Controller.write, if_pos hin, if_pos h.increment, hup]

/-- Data keeps the modes. -/
theorem Ready.write {c : Controller} (h : c.Ready) (b : Nat) : (c.write b).Ready := by
  rcases Bool.eq_false_or_eq_true c.inCgram with hin | ht
  · rw [h.write_cgram hin]
    exact ⟨h.inStep, h.twoLines, h.displayOn, h.increment, h.entryShift, h.shift⟩
  · rw [h.write_text ht]
    exact ⟨h.inStep, h.twoLines, h.displayOn, h.increment, h.entryShift, h.shift⟩

/-- Setting an address keeps the modes. -/
theorem Ready.address {c : Controller} (h : c.Ready) {b : Nat} (hb : 64 ≤ b) :
    (c.instruction b).Ready := by
  rcases Nat.lt_or_ge b 128 with hlt | hge
  · rw [instruction_cgram hb hlt]
    exact ⟨h.inStep, h.twoLines, h.displayOn, h.increment, h.entryShift, h.shift⟩
  · rw [instruction_address hge]
    exact ⟨h.inStep, h.twoLines, h.displayOn, h.increment, h.entryShift, h.shift⟩

theorem Ready.clear {c : Controller} (h : c.Ready) : (c.instruction 1).Ready :=
  ⟨h.inStep, h.twoLines, h.displayOn, rfl, h.entryShift, rfl⟩

/-! ### What is seen -/

/-- The glyph of a code. -/
def glyph (c : Controller) (code : Nat) : Glyph :=
  if code < 16 then .drawn ((List.range 8).map fun i => c.cgram (code % 8 * 8 + i)) else .rom code

def cell (c : Controller) (address : Nat) : Glyph := c.glyph (c.ddram address)

/-- What is seen in a line and a column, if anything. -/
def visible (c : Controller) (row col : Nat) : Option Glyph :=
  if c.displayOn then some (c.cell (row * 0x40 + (col + c.shift) % 40)) else none

end Controller

/-! ### A terminal

What a display would be that has all glyphs of its own. -/

structure Terminal where
  cells : Nat → Glyph
  cursor : Nat

namespace Terminal

def blank : Terminal := ⟨fun _ => .rom 0x20, 0⟩

/-- Write a glyph and move on. -/
def put (g : Glyph) (t : Terminal) : Terminal :=
  ⟨Function.update t.cells t.cursor g, after t.cursor⟩

def goto (address : Nat) (t : Terminal) : Terminal := { t with cursor := address }

/-- Write some glyphs. -/
def puts (gs : List Glyph) (t : Terminal) : Terminal := gs.foldl (fun t g => t.put g) t

/-- **Glyphs that fit into a line stand there one after another**, and nothing
else changes. -/
theorem puts_cells (row n : Nat) (hrow : row < 2) (gs : List Glyph) (hroom : n + gs.length ≤ 40)
    {t : Terminal} (hcursor : t.cursor = row * 64 + n) (a : Nat) :
    (t.puts gs).cells a =
      if row * 64 + n ≤ a ∧ a < row * 64 + n + gs.length then
        gs.getD (a - (row * 64 + n)) (.rom 0x20)
      else t.cells a := by
  induction gs generalizing t n with
  | nil => rw [puts, List.foldl_nil, if_neg (by rw [List.length_nil]; omega)]
  | cons g gs ih =>
    rw [List.length_cons] at hroom ⊢
    have hput : ∀ b, (t.put g).cells b = if b = row * 64 + n then g else t.cells b := by
      intro b
      rw [put, hcursor]
      exact Function.update_apply ..
    have hcons : t.puts (g :: gs) = (t.put g).puts gs := rfl
    rcases gs.eq_nil_or_concat with rfl | ⟨_, _, hne⟩
    · rw [hcons, puts, List.foldl_nil, hput]
      by_cases ha : a = row * 64 + n
      · rw [if_pos ha, if_pos (by simp; omega), ha, Nat.sub_self]
        rfl
      · rw [if_neg ha, if_neg (by simp; omega)]
    · have hpos : 0 < gs.length := by
        rw [hne]
        simp
      have hnext : (t.put g).cursor = row * 64 + (n + 1) := by
        show after t.cursor = _
        rw [hcursor, after, if_neg (by omega), if_neg (by omega), Nat.mod_eq_of_lt (by omega)]
        rfl
      rw [hcons, ih (n + 1) (by omega) hnext, hput]
      by_cases ha : a = row * 64 + n
      · rw [if_neg (by omega), if_pos ha, if_pos (by omega), ha, Nat.sub_self]
        rfl
      · by_cases hin : row * 64 + (n + 1) ≤ a ∧ a < row * 64 + (n + 1) + gs.length
        · rw [if_pos hin, if_pos (by omega),
            show a - (row * 64 + n) = a - (row * 64 + (n + 1)) + 1 by omega]
          rfl
        · rw [if_neg hin, if_neg ha, if_neg (by omega)]

end Terminal

/-- The display shows what the terminal shows. -/
structure Shows (c : Controller) (t : Terminal) : Prop where
  ready : c.Ready
  text : c.inCgram = false
  address : c.address = t.cursor
  cells : ∀ a, c.cell a = t.cells a

namespace Shows

open Controller

variable {c : Controller} {t : Terminal}

/-- What is seen in the sixteen columns, and beyond. -/
theorem visible (h : Shows c t) (row : Nat) {col : Nat} (hcol : col < 40) :
    c.visible row col = some (t.cells (row * 0x40 + col)) := by
  rw [Controller.visible, if_pos h.ready.displayOn, h.cells, h.ready.shift, Nat.add_zero,
    Nat.mod_eq_of_lt hcol]

/-- **Writing a code puts its glyph.** -/
theorem write (h : Shows c t) (code : Nat) : Shows (c.write code) (t.put (c.glyph code)) := by
  have hwrite := h.ready.write_text h.text code
  refine ⟨h.ready.write code, ?_, ?_, ?_⟩
  · rw [hwrite]
    exact h.text
  · rw [hwrite, h.address]
    rfl
  · intro a
    rw [hwrite, Terminal.put, ← h.address]
    show c.glyph (Function.update c.ddram c.address code a) =
      Function.update t.cells c.address (c.glyph code) a
    by_cases ha : a = c.address
    · rw [ha, Function.update_self, Function.update_self]
    · rw [Function.update_of_ne ha, Function.update_of_ne ha, ← h.cells a]
      rfl

/-- Setting the address moves the cursor. -/
theorem goto (h : Shows c t) {address : Nat} (ha : address < 128) :
    Shows (c.instruction (128 + address)) (t.goto address) := by
  have hset : c.instruction (128 + address) = { c with inCgram := false, address := address } := by
    rw [instruction_address (by omega), Nat.add_mod_left, Nat.mod_eq_of_lt ha]
  refine ⟨h.ready.address (by omega), ?_, ?_, ?_⟩
  · rw [hset]
  · rw [hset]
    rfl
  · intro a
    rw [hset]
    exact h.cells a

end Shows

/-- Clearing shows a blank terminal, whatever was there. -/
theorem shows_clear {c : Controller} (h : c.Ready) : Shows (c.instruction 1) .blank :=
  ⟨h.clear, rfl, rfl, fun _ => rfl⟩

/-- **The usual start**: two lines, on, cleared, from left to right, home. -/
theorem shows_start {c : Controller} (h : c.InStep) :
    (c.instruction 0x28).InStep ∧ ((c.instruction 0x28).instruction 0x0C).InStep ∧
      (((c.instruction 0x28).instruction 0x0C).instruction 1).InStep ∧
      ((((c.instruction 0x28).instruction 0x0C).instruction 1).instruction 6).InStep ∧
      Shows (((((c.instruction 0x28).instruction 0x0C).instruction 1).instruction 6).instruction 2)
        .blank :=
  ⟨⟨rfl, h.2⟩, ⟨rfl, h.2⟩, ⟨rfl, h.2⟩, ⟨rfl, h.2⟩,
    ⟨⟨⟨rfl, h.2⟩, rfl, rfl, rfl, rfl, rfl⟩, rfl, rfl, fun _ => rfl⟩⟩

/-! ### Drawing a glyph -/

namespace Controller

/-- Draw a glyph into a slot. -/
def draw (slot : Nat) (rows : List Nat) (c : Controller) : Controller :=
  rows.foldl (fun c b => c.write b) (c.instruction (64 + 8 * slot))

/-- Some bytes to the memory of the glyphs. -/
theorem foldl_write (rows : List Nat) {c : Controller} (h : c.Ready) (hin : c.inCgram = true)
    (hroom : c.address + rows.length ≤ 64) :
    (rows.foldl (fun c b => c.write b) c).ddram = c.ddram ∧
      ∀ x, (rows.foldl (fun c b => c.write b) c).cgram x =
        if c.address ≤ x ∧ x < c.address + rows.length then rows.getD (x - c.address) 0
        else c.cgram x := by
  induction rows generalizing c with
  | nil =>
    refine ⟨rfl, fun x => ?_⟩
    rw [if_neg (by rw [List.length_nil]; omega)]
    rfl
  | cons b rows ih =>
    rw [List.length_cons] at hroom
    have hwrite := h.write_cgram hin b
    rw [Nat.mod_eq_of_lt (show c.address < 64 by omega)] at hwrite
    rw [List.foldl_cons]
    rcases Nat.eq_zero_or_pos rows.length with hzero | hpos
    · obtain rfl := List.length_eq_zero_iff.mp hzero
      rw [List.foldl_nil, hwrite]
      refine ⟨rfl, fun x => ?_⟩
      dsimp only
      by_cases hx : x = c.address
      · rw [hx, Function.update_self, if_pos (by simp), Nat.sub_self]
        rfl
      · rw [Function.update_of_ne hx, if_neg (by simp; omega)]
    · have hnext : (c.address + 1) % 64 = c.address + 1 := Nat.mod_eq_of_lt (by omega)
      obtain ⟨hddram, hcgram⟩ := ih (c := c.write b) (h.write b)
        (by rw [hwrite]; exact hin) (by rw [hwrite, hnext]; dsimp only; omega)
      refine ⟨hddram.trans (by rw [hwrite]), fun x => ?_⟩
      rw [hcgram x, hwrite, List.length_cons]
      dsimp only
      rw [hnext]
      by_cases hx : x = c.address
      · rw [hx, Function.update_self, if_neg (by omega), if_pos (by omega), Nat.sub_self]
        rfl
      · by_cases hin' : c.address + 1 ≤ x ∧ x < c.address + 1 + rows.length
        · rw [if_pos hin', if_pos (by omega), show x - c.address = x - (c.address + 1) + 1 by omega]
          rfl
        · rw [if_neg hin', if_neg (by omega), Function.update_of_ne hx]

/-- **A slot that is drawn holds what was drawn**, and the others are as before. -/
theorem draw_spec {c : Controller} (h : c.Ready) {slot : Nat} (hslot : slot < 8) {rows : List Nat}
    (hrows : rows.length = 8) :
    (c.draw slot rows).Ready ∧ (c.draw slot rows).ddram = c.ddram ∧
      ∀ k < 8, (List.range 8).map (fun i => (c.draw slot rows).cgram (k * 8 + i)) =
        if k = slot then rows else (List.range 8).map fun i => c.cgram (k * 8 + i) := by
  have hset : c.instruction (64 + 8 * slot) = { c with inCgram := true, address := 8 * slot } := by
    rw [instruction_cgram (by omega) (by omega), Nat.add_mod_left, Nat.mod_eq_of_lt (by omega)]
  have hready : ∀ (rows : List Nat) {c : Controller}, c.Ready →
      (rows.foldl (fun c b => c.write b) c).Ready := by
    intro rows
    induction rows with
    | nil => exact fun h => h
    | cons b rows ih => exact fun h => ih (h.write b)
  obtain ⟨hddram, hcgram⟩ := foldl_write rows (c := c.instruction (64 + 8 * slot))
    (h.address (by omega)) (by rw [hset]) (by rw [hset]; dsimp only; omega)
  refine ⟨hready rows (h.address (by omega)), ?_, ?_⟩
  · rw [draw, hddram, hset]
  · intro k hk
    rw [hset] at hcgram
    dsimp only at hcgram
    by_cases hks : k = slot
    · subst hks
      rw [if_pos rfl]
      apply List.ext_getElem
      · simp [hrows]
      · intro i hi hi'
        rw [List.getElem_map, List.getElem_range, draw, hset, hcgram, if_pos (by omega),
          show k * 8 + i - 8 * k = i by omega]
        exact List.getD_eq_getElem _ _ hi'
    · rw [if_neg hks]
      apply List.map_congr_left
      intro i hi
      have hi8 := List.mem_range.mp hi
      rw [draw, hset, hcgram, if_neg (by omega)]

/-- A slot that is drawn is seen wherever its code stands, and nothing else changes. -/
theorem glyph_draw {c : Controller} (h : c.Ready) {slot : Nat} (hslot : slot < 8) {rows : List Nat}
    (hrows : rows.length = 8) (code : Nat) :
    (c.draw slot rows).glyph code =
      if code < 16 ∧ code % 8 = slot then .drawn rows else c.glyph code := by
  obtain ⟨-, -, hcgram⟩ := draw_spec h hslot hrows
  have hcode := hcgram (code % 8) (Nat.mod_lt _ (by decide))
  unfold glyph
  by_cases hlt : code < 16
  · rw [if_pos hlt, if_pos hlt, hcode]
    split_ifs with h1 h2 h2
    · rfl
    · exact absurd ⟨hlt, h1⟩ h2
    · exact absurd h2.2 h1
    · rfl
  · rw [if_neg hlt, if_neg hlt, if_neg (fun hc => hlt hc.1)]

/-- The way back to the text: the text is as before, and so are the other slots. -/
theorem draw_back {c : Controller} (h : c.Ready) {slot : Nat} (hslot : slot < 8) {rows : List Nat}
    (hrows : rows.length = 8) (address : Nat) :
    ((c.draw slot rows).instruction (128 + address)).ddram = c.ddram ∧
      ∀ k < 8, ((c.draw slot rows).instruction (128 + address)).glyph k =
        if k = slot then .drawn rows else c.glyph k := by
  have hset := instruction_address (show 128 ≤ 128 + address by omega) (c.draw slot rows)
  rw [hset]
  refine ⟨(draw_spec h hslot hrows).2.1, ?_⟩
  intro k hk
  have hdraw := glyph_draw h hslot hrows k
  rw [Nat.mod_eq_of_lt hk] at hdraw
  refine hdraw.trans ?_
  by_cases hkslot : k = slot
  · rw [if_pos ⟨by omega, hkslot⟩, if_pos hkslot]
  · rw [if_neg (fun hc => hkslot hc.2), if_neg hkslot]

end Controller

/-- **A slot that is nowhere on the display can be drawn.** -/
theorem Shows.draw {c : Controller} {t : Terminal} (h : Shows c t) {slot : Nat} (hslot : slot < 8)
    {rows : List Nat} (hrows : rows.length = 8)
    (hfree : ∀ a, c.ddram a < 16 → c.ddram a % 8 ≠ slot) (hcursor : t.cursor < 128) :
    Shows ((c.draw slot rows).instruction (128 + t.cursor)) t := by
  obtain ⟨hready, hddram, -⟩ := Controller.draw_spec h.ready hslot hrows
  have hset : (c.draw slot rows).instruction (128 + t.cursor) =
      { c.draw slot rows with inCgram := false, address := t.cursor } := by
    rw [Controller.instruction_address (by omega), Nat.add_mod_left, Nat.mod_eq_of_lt hcursor]
  refine ⟨hready.address (by omega), ?_, ?_, ?_⟩
  · rw [hset]
  · rw [hset]
  · intro a
    rw [hset, ← h.cells a]
    show (c.draw slot rows).glyph ((c.draw slot rows).ddram a) = c.glyph (c.ddram a)
    rw [hddram, Controller.glyph_draw h.ready hslot hrows, if_neg (fun hc => hfree a hc.1 hc.2)]

end Hd44780
