import Polivunator.Lcd.Glass

/-!
# The pages on the glass

`lines` says what the two lines of each page should be.  No page needs more than
seven letters to draw, so all of them can be shown, though the home page and two
others need all seven (`drawable_drawing`).

`glass_shows` is every return of `Menu()` in every run, from any state the
display may have been left in.
-/

namespace Polivunator.Lcd

open Labelled Hd44780 Display WString

/-! ### The lines -/

/-- The line that asks for a digit. -/
def promptLine : Nat → WString
  | 0 => "Часы *_:__".toList
  | 1 => "Часы -*:__".toList
  | 2 => "Минуты --:*_".toList
  | 3 => "Минуты --:-*".toList
  | _ => []

def infoLines (k : Bed) (s : State) : WString × WString :=
  (bedName k ++ ": ".toList ++ s.timeSetupSettings k, "Время: ".toList ++ s.actualTime)

def typingLines (k : Bed) (s : State) : WString × WString :=
  (bedName k ++ ": ".toList ++ s.timeSetupSettingsSetup, promptLine s.stepSetTime)

/-- The two lines of the current page. -/
def lines (s : State) : WString × WString :=
  match s.menuLcd with
  | .menuHome =>
      ("Температура: ".toList ++ ofInt s.temp ++ "С".toList,
        "Влажность:   ".toList ++ ofInt s.humidity ++ "%".toList)
  | .menuSetup => ("Настройки".toList, [])
  | .menuPoliv1 => (bedName .bed1, [])
  | .menuPoliv2 => (bedName .bed2, [])
  | .menuPoliv3 => (bedName .bed3, [])
  | .menuInfoPoliv1 => infoLines .bed1 s
  | .menuInfoPoliv2 => infoLines .bed2 s
  | .menuInfoPoliv3 => infoLines .bed3 s
  | .menuSetParameters =>
      match s.setParameters with
      | .menuPoliv1 => typingLines .bed1 s
      | .menuPoliv2 => typingLines .bed2 s
      | .menuPoliv3 => typingLines .bed3 s
      | _ => ([], [])
  | .menuLcdBriglight =>
      (if s.lcdBrigtlight then "Подсветка ВЫКЛ".toList else "Подсветка ВКЛ".toList, [])

/-- A text of characters that the display has, and not too long. -/
def Fits (n : Nat) (text : WString) : Prop :=
  text.length ≤ n ∧ ∀ x ∈ text, 0x20 ≤ x.toNat ∧ x.toNat < 0x7F

/-- What the page takes from elsewhere fits into its lines: the readings are
values of an `int`, not too much has been typed, and where a schedule and the
clock are shown their texts are no trouble. -/
structure Fitting (s : State) : Prop where
  temp : -32768 ≤ s.temp ∧ s.temp ≤ 32767
  humidity : -32768 ≤ s.humidity ∧ s.humidity ≤ 32767
  typed : s.timeSetupSettingsSetup.length ≤ 30
  schedule : isInfo s.menuLcd = true → ∀ k, Fits 30 (s.timeSetupSettings k)
  clock : isInfo s.menuLcd = true → Fits 33 s.actualTime

/-! ### Letters -/

theorem readable_append {alphabet : List Nat} {text text' : WString} :
    readable alphabet (text ++ text') = (readable alphabet text && readable alphabet text') :=
  List.all_append

theorem readable_of_fits (alphabet : List Nat) {n : Nat} {text : WString} (h : Fits n text) :
    readable alphabet text = true := by
  have hplain : ∀ n < 0x7F, 0x20 ≤ n → rus n = none ∧ 16 ≤ (code n).toNat := by decide +kernel
  refine List.all_eq_true.mpr fun x hx => ?_
  obtain ⟨hlo, hhi⟩ := h.2 x hx
  obtain ⟨hrus, hcode⟩ := hplain x.toNat hhi hlo
  rw [hrus, Bool.and_eq_true, decide_eq_true_eq]
  exact ⟨by omega, by simpa using hcode⟩

theorem plain_ofNat (k : Nat) : ∀ x ∈ ofNat k, 0x20 ≤ x.toNat ∧ x.toNat < 0x7F := by
  intro x hx
  have hdigit : 48 ≤ x.toNat ∧ x.toNat ≤ 57 :=
    Char.isDigit_iff_toNat.mp (Nat.isDigit_of_mem_toDigits (by decide) (by decide) hx)
  exact ⟨by omega, by omega⟩

/-- The text of an `int`. -/
theorem fits_ofInt {n : Int} (h : -32768 ≤ n ∧ n ≤ 32767) : Fits 6 (ofInt n) := by
  have hdigits : ∀ k ≤ 32768, Fits 5 (ofNat k) := by
    intro k hk
    exact ⟨(Nat.length_toDigits_le_iff (by decide) (by decide)).mpr (by omega), plain_ofNat k⟩
  cases n with
  | ofNat k =>
    have hk : (k : Int) ≤ 32767 := h.2
    obtain ⟨hlen, hplain⟩ := hdigits k (by omega)
    exact ⟨by rw [ofInt]; omega, hplain⟩
  | negSucc k =>
    have hk : -32768 ≤ -((k : Int) + 1) := h.1
    obtain ⟨hlen, hplain⟩ := hdigits (k + 1) (by omega)
    refine ⟨by rw [ofInt, List.length_cons]; omega, ?_⟩
    intro x hx
    rcases List.mem_cons.mp hx with rfl | hx
    · decide
    · exact hplain x hx

/-- What is typed is digits and colons. -/
theorem plain_typedFrom (i : Nat) (ds : List Nat) :
    ∀ x ∈ Keypad.typedFrom i ds, 0x20 ≤ x.toNat ∧ x.toNat < 0x7F := by
  induction ds generalizing i with
  | nil => exact fun x hx => absurd hx List.not_mem_nil
  | cons d ds ih =>
    intro x hx
    rw [Keypad.typedFrom, List.mem_append] at hx
    rcases hx with hx | hx
    · split_ifs at hx
      · rcases List.mem_cons.mp hx with rfl | hx
        · decide
        · exact plain_ofNat d x hx
      · exact plain_ofNat d x hx
    · exact ih (i + 1) x hx

/-- **In every run what is typed is digits and colons.** -/
theorem after_plain (es : List Event) :
    ∀ x ∈ (after es).timeSetupSettingsSetup, 0x20 ≤ x.toNat ∧ x.toNat < 0x7F := by
  have hm := Keypad.after_matches es
  cases ht : Keypad.keypadAfter es with
  | none =>
    rw [ht] at hm
    rw [hm.buffer]
    exact fun x hx => absurd hx List.not_mem_nil
  | some t =>
    rw [ht] at hm
    rw [hm.buffer]
    exact plain_typedFrom 0 t.digits

/-! ### Seven letters -/

theorem print_drawable {alphabet : List Nat} {text : WString} (h : readable alphabet text = true)
    {n : Nat} (hroom : n + text.length ≤ 40) :
    CallDrawable alphabet (some n) (.print text) :=
  ⟨⟨n, rfl, hroom⟩, readable_spec h⟩

/-- The letters to draw in the name of a bed. -/
def bedLetters : Bed → WString
  | .bed1 => "гцы".toList
  | .bed2 => "Пмиды".toList
  | .bed3 => "Пц".toList

/-- The letters to draw in the line that asks for a digit, apart from the name's. -/
def promptLetters (step : Nat) : WString := if step < 2 then "Чы".toList else "инты".toList

/-- The letters to draw on the current page. -/
def pageLetters (s : State) : WString :=
  match s.menuLcd with
  | .menuHome => "мптлжнь".toList
  | .menuSetup => "тйки".toList
  | .menuPoliv1 => bedLetters .bed1
  | .menuPoliv2 => bedLetters .bed2
  | .menuPoliv3 => bedLetters .bed3
  | .menuInfoPoliv1 => bedLetters .bed1 ∪ "мя".toList
  | .menuInfoPoliv2 => bedLetters .bed2 ∪ "мя".toList
  | .menuInfoPoliv3 => bedLetters .bed3 ∪ "мя".toList
  | .menuSetParameters =>
      match s.setParameters with
      | .menuPoliv1 => bedLetters .bed1 ∪ promptLetters s.stepSetTime
      | .menuPoliv2 => bedLetters .bed2 ∪ promptLetters s.stepSetTime
      | .menuPoliv3 => bedLetters .bed3 ∪ promptLetters s.stepSetTime
      | _ => []
  | .menuLcdBriglight => "ПдвткЫЛ".toList

def alphabet (s : State) : List Nat := (pageLetters s).map Char.toNat

/-- **No page needs more than seven.** -/
theorem length_alphabet (s : State) : (alphabet s).length ≤ 7 := by
  have hprompt : ∀ k : Bed, (bedLetters k ∪ promptLetters s.stepSetTime).length ≤ 7 := by
    intro k
    unfold promptLetters
    split_ifs <;> cases k <;> decide
  rw [alphabet, List.length_map]
  unfold pageLetters
  split
  case h_9 =>
    split
    · exact hprompt .bed1
    · exact hprompt .bed2
    · exact hprompt .bed3
    · decide
  all_goals decide

theorem screen_titled (text : WString) (rest : List LcdCall) :
    screen (titled text rest) = run shows [.setCursor 0 0, .print text] rest := rfl

/-- The calls of a page with a schedule. -/
theorem screen_info (k : Bed) {s : State} (hpage : s.menuLcd ≠ .menuSetParameters) :
    screen (infoDrawing k s) = [.setCursor 0 0, .print (bedName k ++ ": ".toList),
      .print (s.timeSetupSettings k), .setCursor 0 1, .print ("Время: ".toList ++ s.actualTime)] := by
  rw [infoDrawing, screen_titled, prompt, if_neg hpage]
  rfl

/-- The calls of the page where schedules are typed. -/
theorem screen_typing (k : Bed) {s : State} (hpage : s.menuLcd = .menuSetParameters) :
    screen (typingDrawing k s) = [.setCursor 0 0, .print (bedName k ++ ": ".toList),
      .print s.timeSetupSettingsSetup, .setCursor 0 1] ++ promptText s.stepSetTime := by
  rw [typingDrawing, screen_titled, prompt, if_pos hpage]
  unfold promptText
  split <;> rfl

theorem drawable_info (k : Bed) {s : State} (hschedule : Fits 30 (s.timeSetupSettings k))
    (hclock : Fits 33 s.actualTime) (hpage : s.menuLcd ≠ .menuSetParameters) :
    Drawable ((bedLetters k ∪ "мя".toList).map Char.toNat) none (screen (infoDrawing k s)) := by
  have hname : readable ((bedLetters k ∪ "мя".toList).map Char.toNat) (bedName k ++ ": ".toList) =
      true := by
    cases k <;> decide
  have htime : readable ((bedLetters k ∪ "мя".toList).map Char.toNat) "Время: ".toList = true := by
    cases k <;> decide
  have hlen : (bedName k ++ ": ".toList).length ≤ 10 := by cases k <;> decide
  rw [screen_info k hpage]
  refine ⟨⟨by decide, by decide⟩, print_drawable hname (by omega),
    print_drawable (readable_of_fits _ hschedule) ?_, ⟨by decide, by decide⟩, print_drawable ?_ ?_,
    trivial⟩
  · have hfits := hschedule.1
    show 0 + (bedName k ++ ": ".toList).length + _ ≤ 40
    omega
  · rw [readable_append, htime, readable_of_fits _ hclock]
    rfl
  · have hfits := hclock.1
    have htitle : "Время: ".toList.length = 7 := by decide
    rw [List.length_append]
    omega

theorem drawable_typing (k : Bed) {s : State} (htyped : Fits 30 s.timeSetupSettingsSetup)
    (hpage : s.menuLcd = .menuSetParameters) :
    Drawable ((bedLetters k ∪ promptLetters s.stepSetTime).map Char.toNat) none
      (screen (typingDrawing k s)) := by
  have hname : readable ((bedLetters k ∪ promptLetters s.stepSetTime).map Char.toNat)
      (bedName k ++ ": ".toList) = true := by
    unfold promptLetters
    split_ifs <;> cases k <;> decide
  have hlen : (bedName k ++ ": ".toList).length ≤ 10 := by cases k <;> decide
  have hfits := htyped.1
  have hroom : 0 + (bedName k ++ ": ".toList).length + s.timeSetupSettingsSetup.length ≤ 40 := by
    omega
  have hprompt : Drawable ((bedLetters k ∪ promptLetters s.stepSetTime).map Char.toNat) (some 0)
      (promptText s.stepSetTime) := by
    rcases s.stepSetTime with _ | _ | _ | _ | step
    case succ.succ.succ.succ => exact trivial
    all_goals
      refine ⟨print_drawable ?_ (by decide), trivial⟩
      cases k <;> decide
  rw [screen_typing k hpage, drawable_append]
  exact ⟨⟨⟨by decide, by decide⟩, print_drawable hname (by omega),
    print_drawable (readable_of_fits _ htyped) hroom, ⟨by decide, by decide⟩, trivial⟩, hprompt⟩

/-- A page of one text. -/
theorem drawable_titled (needed text : WString) (h : readable (needed.map Char.toNat) text = true)
    (hlen : text.length ≤ 40) :
    Drawable (needed.map Char.toNat) none [.setCursor 0 0, .print text] :=
  ⟨⟨by decide, by decide⟩, print_drawable h (by omega), trivial⟩

theorem drawable_home {s : State} (h : Fitting s) :
    Drawable ("мптлжнь".toList.map Char.toNat) none (screen (titled "Температура: ".toList
      [.print (ofInt s.temp), .print "С".toList, .setCursor 0 1, .print "Влажность:   ".toList,
        .print (ofInt s.humidity), .print "%".toList])) := by
  have htemp := fits_ofInt h.temp
  have hhumidity := fits_ofInt h.humidity
  have htempLen := htemp.1
  have hhumidityLen := hhumidity.1
  have hfirst : "Температура: ".toList.length = 13 := by decide
  have hsecond : "Влажность:   ".toList.length = 13 := by decide
  have hlast : "С".toList.length = 1 ∧ "%".toList.length = 1 := by decide
  refine ⟨⟨by decide, by decide⟩, print_drawable (by decide) (by omega),
    print_drawable (readable_of_fits _ htemp) ?_, print_drawable (by decide) ?_,
    ⟨by decide, by decide⟩, print_drawable (by decide) (by omega),
    print_drawable (readable_of_fits _ hhumidity) ?_, print_drawable (by decide) ?_, trivial⟩
  · show 0 + "Температура: ".toList.length + _ ≤ 40
    omega
  · show 0 + "Температура: ".toList.length + (ofInt s.temp).length + _ ≤ 40
    omega
  · show 0 + "Влажность:   ".toList.length + _ ≤ 40
    omega
  · show 0 + "Влажность:   ".toList.length + (ofInt s.humidity).length + _ ≤ 40
    omega

/-- **Every page can be drawn** with its letters. -/
theorem drawable_drawing {s : State} (h : Fitting s) (htyped : Fits 30 s.timeSetupSettingsSetup)
    (htarget : Targeted s) : Drawable (alphabet s) none (screen (drawing s)) := by
  have hinfo : ∀ k, isInfo s.menuLcd = true → s.menuLcd ≠ .menuSetParameters →
      Drawable ((bedLetters k ∪ "мя".toList).map Char.toNat) none (screen (infoDrawing k s)) :=
    fun k hseen hpage => drawable_info k (h.schedule hseen k) (h.clock hseen) hpage
  rw [alphabet]
  unfold pageLetters drawing
  cases hpage : s.menuLcd with
  | menuHome => exact drawable_home h
  | menuSetup => exact drawable_titled "тйки".toList "Настройки".toList (by decide) (by decide)
  | menuPoliv1 => exact drawable_titled (bedLetters .bed1) (bedName .bed1) (by decide) (by decide)
  | menuPoliv2 => exact drawable_titled (bedLetters .bed2) (bedName .bed2) (by decide) (by decide)
  | menuPoliv3 => exact drawable_titled (bedLetters .bed3) (bedName .bed3) (by decide) (by decide)
  | menuInfoPoliv1 => exact hinfo .bed1 (by rw [hpage, isInfo]) (by rw [hpage]; decide)
  | menuInfoPoliv2 => exact hinfo .bed2 (by rw [hpage, isInfo]) (by rw [hpage]; decide)
  | menuInfoPoliv3 => exact hinfo .bed3 (by rw [hpage, isInfo]) (by rw [hpage]; decide)
  | menuSetParameters =>
    obtain ⟨k, hk⟩ := htarget hpage
    rw [hk]
    cases k with
    | bed1 => exact drawable_typing .bed1 htyped hpage
    | bed2 => exact drawable_typing .bed2 htyped hpage
    | bed3 => exact drawable_typing .bed3 htyped hpage
  | menuLcdBriglight =>
    cases s.lcdBrigtlight with
    | true =>
      exact drawable_titled "ПдвткЫЛ".toList "Подсветка ВЫКЛ".toList (by decide) (by decide)
    | false =>
      exact drawable_titled "ПдвткЫЛ".toList "Подсветка ВКЛ".toList (by decide) (by decide)

/-! ### The two lines -/

/-- What stands in a line and a column. -/
def lineChar (ls : WString × WString) (row col : Nat) : Char :=
  (if row = 0 then ls.1 else ls.2).getD col ' '

theorem paint_print (t : Terminal) (text : WString) :
    paint t (.print text) = t.puts (text.map fun x => look x.toNat) := by
  rw [Terminal.puts, List.foldl_map]
  rfl

theorem paint_print_append (t : Terminal) (text text' : WString) :
    paint (paint t (.print text)) (.print text') = paint t (.print (text ++ text')) :=
  List.foldl_append.symm

theorem promptText_eq (step : Nat) :
    promptText step = if step < 4 then [.print (promptLine step)] else [] := by
  rcases step with _ | _ | _ | _ | step
  case succ.succ.succ.succ => exact (if_neg (by omega)).symm
  all_goals rfl

theorem run_promptText (t : Terminal) (step : Nat) :
    run paint t (promptText step) = paint t (.print (promptLine step)) := by
  rw [promptText_eq]
  split_ifs with hstep
  · rfl
  · have hline : promptLine step = [] := by
      unfold promptLine
      split <;> first | rfl | omega
    rw [hline]
    rfl

/-- A text in each line. -/
theorem page_two {ls : WString × WString} (h : ls.1.length ≤ 40 ∧ ls.2.length ≤ 40) {row col : Nat}
    (hrow : row < 2) (hcol : col < 40) :
    (page [.setCursor 0 0, .print ls.1, .setCursor 0 1, .print ls.2]).cells (row * 64 + col) =
      look (lineChar ls row col).toNat := by
  have hgetD : ∀ text : WString, (text.map fun x => look x.toNat).getD col (.rom 0x20) =
      look (text.getD col ' ').toNat := by
    intro text
    rw [show Glyph.rom 0x20 = look (' ' : Char).toNat by decide]
    exact List.getD_map ..
  have hnone : ∀ text : WString, text.length ≤ col → Glyph.rom 0x20 =
      look (text.getD col ' ').toNat := by
    intro text hlen
    rw [List.getD_eq_default _ _ hlen]
    decide
  have hpage : page [.setCursor 0 0, .print ls.1, .setCursor 0 1, .print ls.2] =
      ((Terminal.blank.goto 0).puts (ls.1.map fun x => look x.toNat) |>.goto 64).puts
        (ls.2.map fun x => look x.toNat) := by
    rw [page, run_cons, run_cons, run_cons, run_cons, paint_print, paint_print]
    rfl
  have hsecond := Terminal.puts_cells 1 0 (by decide) (ls.2.map fun x => look x.toNat)
    (by rw [List.length_map]; omega)
    (t := ((Terminal.blank.goto 0).puts (ls.1.map fun x => look x.toNat)).goto 64) rfl
  have hfirst := Terminal.puts_cells 0 0 (by decide) (ls.1.map fun x => look x.toNat)
    (by rw [List.length_map]; omega)
    (t := Terminal.blank.goto 0) rfl
  simp only [List.length_map, Nat.zero_mul, Nat.one_mul, Nat.add_zero, Nat.zero_add, Nat.sub_zero,
    Nat.zero_le, true_and] at hfirst hsecond
  rw [hpage, hsecond, lineChar]
  rcases Nat.lt_or_ge row 1 with hzero | hone
  · obtain rfl : row = 0 := by omega
    rw [if_neg (by omega), if_pos rfl, Nat.zero_mul, Nat.zero_add]
    show ((Terminal.blank.goto 0).puts _).cells col = _
    rw [hfirst]
    split_ifs with hlt
    · exact hgetD ls.1
    · exact hnone ls.1 (by omega)
  · obtain rfl : row = 1 := by omega
    rw [if_neg (show ¬ 1 = 0 by decide), Nat.one_mul]
    by_cases hlt : col < ls.2.length
    · rw [if_pos (by omega), Nat.add_sub_cancel_left]
      exact hgetD ls.2
    · rw [if_neg (by omega)]
      show ((Terminal.blank.goto 0).puts _).cells (64 + col) = _
      rw [hfirst, if_neg (by omega)]
      exact hnone ls.2 (by omega)

theorem lines_length {s : State} (h : Fitting s) :
    (lines s).1.length ≤ 40 ∧ (lines s).2.length ≤ 40 := by
  have hprompt : ∀ step, (promptLine step).length ≤ 40 := by
    intro step
    unfold promptLine
    split <;> decide
  have hinfo : ∀ k, isInfo s.menuLcd = true →
      (infoLines k s).1.length ≤ 40 ∧ (infoLines k s).2.length ≤ 40 := by
    intro k hpage
    have hname : (bedName k ++ ": ".toList).length ≤ 10 := by cases k <;> decide
    have htitle : "Время: ".toList.length = 7 := by decide
    have hschedule := (h.schedule hpage k).1
    have hclock := (h.clock hpage).1
    have hfirst : (infoLines k s).1.length =
        (bedName k ++ ": ".toList).length + (s.timeSetupSettings k).length := List.length_append
    have hsecond : (infoLines k s).2.length = "Время: ".toList.length + s.actualTime.length :=
      List.length_append
    omega
  have htyping : ∀ k, (typingLines k s).1.length ≤ 40 ∧ (typingLines k s).2.length ≤ 40 := by
    intro k
    have hname : (bedName k ++ ": ".toList).length ≤ 10 := by cases k <;> decide
    have htyped := h.typed
    rw [typingLines, List.length_append]
    exact ⟨by omega, hprompt _⟩
  unfold lines
  split <;> rename_i hpage
  case h_1 =>
    have htemp := (fits_ofInt h.temp).1
    have hhumidity := (fits_ofInt h.humidity).1
    have hfirst : "Температура: ".toList.length = 13 ∧ "С".toList.length = 1 := by decide
    have hsecond : "Влажность:   ".toList.length = 13 ∧ "%".toList.length = 1 := by decide
    rw [List.length_append, List.length_append, List.length_append, List.length_append]
    omega
  case h_6 => exact hinfo .bed1 (by rw [hpage, isInfo])
  case h_7 => exact hinfo .bed2 (by rw [hpage, isInfo])
  case h_8 => exact hinfo .bed3 (by rw [hpage, isInfo])
  case h_9 =>
    split
    · exact htyping .bed1
    · exact htyping .bed2
    · exact htyping .bed3
    · decide
  case h_10 =>
    split_ifs <;> decide
  all_goals decide

/-- **A drawing has the lines of its page.** -/
theorem page_drawing {s : State} (htarget : Targeted s) :
    (page (screen (drawing s))).cells =
      (page [.setCursor 0 0, .print (lines s).1, .setCursor 0 1, .print (lines s).2]).cells := by
  have hinfo : ∀ k, s.menuLcd ≠ .menuSetParameters →
      (page (screen (infoDrawing k s))).cells =
        (page [.setCursor 0 0, .print (infoLines k s).1, .setCursor 0 1,
          .print (infoLines k s).2]).cells := by
    intro k hpage
    simp only [screen_info k hpage, infoLines, page, run_cons, paint_print_append]
  have htyping : ∀ k, s.menuLcd = .menuSetParameters →
      (page (screen (typingDrawing k s))).cells =
        (page [.setCursor 0 0, .print (typingLines k s).1, .setCursor 0 1,
          .print (typingLines k s).2]).cells := by
    intro k hpage
    rw [screen_typing k hpage]
    simp only [typingLines, page, run_append, run_cons, run_nil, run_promptText, paint_print_append]
  unfold lines drawing
  cases hpage : s.menuLcd with
  | menuHome =>
    simp only [screen_titled, page, run_cons, run_nil, shows, List.nil_append, List.cons_append,
      paint_print_append]
  | menuInfoPoliv1 => exact hinfo .bed1 (by rw [hpage]; decide)
  | menuInfoPoliv2 => exact hinfo .bed2 (by rw [hpage]; decide)
  | menuInfoPoliv3 => exact hinfo .bed3 (by rw [hpage]; decide)
  | menuSetParameters =>
    obtain ⟨k, hk⟩ := htarget hpage
    rw [hk]
    cases k with
    | bed1 => exact htyping .bed1 hpage
    | bed2 => exact htyping .bed2 hpage
    | bed3 => exact htyping .bed3 hpage
  | menuLcdBriglight => cases s.lcdBrigtlight <;> rfl
  | _ => rfl

/-! ### Runs -/

theorem begin_not_mem_drawing {s : State} (h : Targeted s) : LcdCall.begin ∉ drawing s := by
  have hprompt : ∀ page step, LcdCall.begin ∉ prompt page step := by
    intro page step
    rw [prompt, promptText_eq]
    split_ifs <;> simp
  have hinfo : ∀ k, LcdCall.begin ∉ infoDrawing k s := by
    intro k
    simp [infoDrawing, titled, hprompt]
  have htyping : ∀ k, LcdCall.begin ∉ typingDrawing k s := by
    intro k
    simp [typingDrawing, titled, hprompt]
  unfold drawing
  split
  case h_6 => exact hinfo .bed1
  case h_7 => exact hinfo .bed2
  case h_8 => exact hinfo .bed3
  case h_9 hpage =>
    obtain ⟨k, hk⟩ := h hpage
    rw [hk]
    cases k
    · exact htyping .bed1
    · exact htyping .bed2
    · exact htyping .bed3
  case h_10 => split_ifs <;> simp [titled]
  all_goals simp [titled]

/-- Only `Menu()` talks to the display. -/
theorem step_lcd (s : State) (e : Event) :
    (step s e).lcd = s.lcd ∨ (step s e).lcd = s.lcd ++ drawing s := by
  cases e with
  | clock gettime => exact Or.inl rfl
  | ir value =>
    exact Or.inl (congrArg (fun x => x.2.2)
      (panel_unkeyed.key_of_untyped (fun _ _ _ _ _ _ => rfl) (some value) s))
  | menu =>
    rw [step, menu_eq]
    dsimp only
    split_ifs
    · exact Or.inr rfl
    · exact Or.inl (List.append_nil _)
  | sms str =>
    exact Or.inl (congrArg (fun x => x.2.2)
      (panel_unkeyed.receivesms (fun _ _ _ _ _ _ => rfl) str s))
  | temperature readHumidity readTemperature =>
    rw [step, readTemperatureBlock_eq]
    exact Or.inl rfl
  | poliv =>
    rw [step, readPolivBlock_eq]
    exact Or.inl rfl

/-- **The display is started once**, before all else. -/
theorem after_begun (es : List Event) :
    ∃ cs, (after es).lcd = .begin :: cs ∧ LcdCall.begin ∉ cs := by
  induction es using List.reverseRecOn with
  | nil => exact ⟨[.backlight], rfl, by decide⟩
  | append_singleton es e ih =>
    obtain ⟨cs, hcs, hmem⟩ := ih
    rw [after, run_snoc, ← after]
    rcases step_lcd (after es) e with hlcd | hlcd
    · exact ⟨cs, hlcd.trans hcs, hmem⟩
    · refine ⟨cs ++ drawing (after es), by rw [hlcd, hcs, List.cons_append], ?_⟩
      rw [List.mem_append, not_or]
      exact ⟨hmem, begin_not_mem_drawing (after_targeted es)⟩

/-- The events of a pass before `Menu()`. -/
def upToKey (r : Round) : List Event :=
  (r.clock.map Event.clock).toList ++ (r.ir.map Event.ir).toList

/-- What has been sent since the last `clear`, when `Menu()` returns.  On the pages
with a schedule it must have drawn. -/
theorem menu_screen (rs : List Round) (r : Round)
    (hseen : isInfo (after (roundEvents rs ++ r.upToMenu)).menuLcd = true →
      (after (roundEvents rs ++ upToKey r)).menuReftach = true) :
    screen (after (roundEvents rs ++ r.upToMenu)).lcd =
      screen (drawing (after (roundEvents rs ++ r.upToMenu))) := by
  rcases Bool.eq_false_or_eq_true (isInfo (after (roundEvents rs ++ r.upToMenu)).menuLcd) with
    hinfo | hinfo
  · have hmenu :
        after (roundEvents rs ++ r.upToMenu) = menu (after (roundEvents rs ++ upToKey r)) := by
      rw [Round.upToMenu, ← List.append_assoc, after, run_snoc]
      rfl
    obtain ⟨ds, hds⟩ := drawing_clear (after_targeted (roundEvents rs ++ upToKey r))
    have hdrawing : ∀ s, drawing (menu s) = drawing s := by
      intro s
      rw [menu_eq]
      rfl
    rw [hmenu, hdrawing, menu_eq, hseen hinfo, hds]
    exact screen_append_clear _ ds
  · exact (upToMenu_shown (rounds_current rs) r).shown hinfo

/-- **The display shows the page.**  Whatever state it was in when the board was
switched on: whenever `Menu()` returns, every place of both lines shows the
letter of the page that belongs there. -/
theorem glass_shows (p : Port) (rs : List Round) (r : Round)
    (hseen : isInfo (after (roundEvents rs ++ r.upToMenu)).menuLcd = true →
      (after (roundEvents rs ++ upToKey r)).menuReftach = true)
    (hfit : Fitting (after (roundEvents rs ++ r.upToMenu))) {row col : Nat} (hrow : row < 2)
    (hcol : col < 40) :
    (run call (lcd p) (after (roundEvents rs ++ r.upToMenu)).lcd).liquid.port.controller.visible
        row col =
      some (look (lineChar (lines (after (roundEvents rs ++ r.upToMenu))) row col).toNat) := by
  have hscreen := menu_screen rs r hseen
  generalize roundEvents rs ++ r.upToMenu = es at hscreen hfit ⊢
  obtain ⟨cs, hcs, hmem⟩ := after_begun es
  have htarget := after_targeted es
  have hsame : screen cs = screen (drawing (after es)) := by
    rw [← hscreen, hcs]
    rfl
  have hdraw := drawable_drawing hfit ⟨hfit.typed, after_plain es⟩ htarget
  rw [← hsame] at hdraw
  obtain ⟨c, ds, hrenders, -, -⟩ := (glass_run p hmem).right _ (length_alphabet _) hdraw
  have hcontroller := hrenders.sound.driver.controller
  rw [hcs, run_cons, hcontroller, hrenders.shows.visible row hcol, hsame, page_drawing htarget,
    page_two (lines_length hfit) hrow hcol]

/-- The home page after the board has been switched on. -/
theorem glass_shows_home :
    (run call (lcd LiquidCrystal.confused)
        (after (roundEvents [] ++ Round.upToMenu {})).lcd).liquid.port.controller.visible 1 1 =
      some (.drawn [0, 0, 0b00111, 0b01001, 0b01001, 0b01001, 0b10001, 0]) :=
  glass_shows LiquidCrystal.confused [] {} (fun hinfo => absurd hinfo (by decide))
    ⟨by decide, by decide, by decide, fun hinfo => absurd hinfo (by decide),
      fun hinfo => absurd hinfo (by decide)⟩ (by decide) (by decide)

end Polivunator.Lcd
