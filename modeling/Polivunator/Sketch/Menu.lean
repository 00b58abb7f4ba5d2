import Polivunator.Sketch.State
import Mathlib.Tactic.SplitIfs

/-!
# The display

`Menu()` draws the current page when `g_bMenuReftach` is set, and clears that
flag.  Every drawing starts with a call of `LcdPrint` that clears the display.
-/

namespace Polivunator

open WString

/-- One call to the display. -/
def lcdCall (c : LcdCall) (s : State) : State := { s with lcd := s.lcd ++ [c] }

/-- `lcd.print(text)`. -/
def lcdPrintText (text : WString) (s : State) : State := lcdCall (.print text) s

/-- `LcdPrint(x, y, Str, clear)`. -/
def lcdPrint (x y : Nat) (str : WString) (clear : Bool) (s : State) : State :=
  let s := if clear then lcdCall .clear s else s
  lcdPrintText str (lcdCall (.setCursor x y) s)

/-- `SetLcdTime(time)`. -/
def setLcdTime (time : WString) (s : State) : State :=
  let s := lcdPrintText time s
  if s.menuLcd = .menuSetParameters then
    let s := lcdCall (.setCursor 0 1) s
    match s.stepSetTime with
    | 0 => lcdPrintText "Часы *_:__".toList s
    | 1 => lcdPrintText "Часы -*:__".toList s
    | 2 => lcdPrintText "Минуты --:*_".toList s
    | 3 => lcdPrintText "Минуты --:-*".toList s
    | _ => s
  else s

/-- The name of a bed on its three pages. -/
def bedName : Bed → WString
  | .bed1 => "Огурцы".toList
  | .bed2 => "Помидоры".toList
  | .bed3 => "Перец".toList

/-- `case MENU_HOME`. -/
def menuHome (s : State) : State :=
  let s := lcdPrint 0 0 "Температура: ".toList true s
  let s := lcdPrintText (ofInt s.temp) s
  let s := lcdPrintText "С".toList s
  let s := lcdCall (.setCursor 0 1) s
  let s := lcdPrintText "Влажность:   ".toList s
  let s := lcdPrintText (ofInt s.humidity) s
  lcdPrintText "%".toList s

/-- `case MENU_INFO_POLIV1` to `MENU_INFO_POLIV3`. -/
def menuInfoPoliv (k : Bed) (s : State) : State :=
  let s := lcdPrint 0 0 (bedName k ++ ": ".toList) true s
  let s := setLcdTime (s.timeSetupSettings k) s
  lcdPrint 0 1 ("Время: ".toList ++ s.actualTime) false s

/-- A `case` of the inner `switch` of `MENU_SET_PARAMETERS`. -/
def menuSetParameters (k : Bed) (s : State) : State :=
  let s := lcdPrint 0 0 (bedName k ++ ": ".toList) true s
  setLcdTime s.timeSetupSettingsSetup s

/-- `case MENU_LCD_BRIGLIGHT`. -/
def menuLcdBriglight (s : State) : State :=
  if s.lcdBrigtlight then lcdCall .backlight (lcdPrint 0 0 "Подсветка ВЫКЛ".toList true s)
  else lcdCall .noBacklight (lcdPrint 0 0 "Подсветка ВКЛ".toList true s)

/-- The `switch` over the page. -/
def menuPage (s : State) : State :=
  match s.menuLcd with
  | .menuHome => menuHome s
  | .menuSetup => lcdPrint 0 0 "Настройки".toList true s
  | .menuPoliv1 => lcdPrint 0 0 (bedName .bed1) true s
  | .menuPoliv2 => lcdPrint 0 0 (bedName .bed2) true s
  | .menuPoliv3 => lcdPrint 0 0 (bedName .bed3) true s
  | .menuInfoPoliv1 => menuInfoPoliv .bed1 s
  | .menuInfoPoliv2 => menuInfoPoliv .bed2 s
  | .menuInfoPoliv3 => menuInfoPoliv .bed3 s
  | .menuSetParameters =>
      match s.setParameters with
      | .menuPoliv1 => menuSetParameters .bed1 s
      | .menuPoliv2 => menuSetParameters .bed2 s
      | .menuPoliv3 => menuSetParameters .bed3 s
      | _ => s
  | .menuLcdBriglight => menuLcdBriglight s

/-- `Menu()`. -/
def menu (s : State) : State :=
  { (if s.menuReftach then menuPage s else s) with menuReftach := false }

/-! ### The drawings

The calls each page makes, spelled out.  `menuPage_eq` says these are the calls
`Menu()` appends, and that it does nothing else. -/

/-- Which digit is asked for. -/
def promptText : Nat → List LcdCall
  | 0 => [.print "Часы *_:__".toList]
  | 1 => [.print "Часы -*:__".toList]
  | 2 => [.print "Минуты --:*_".toList]
  | 3 => [.print "Минуты --:-*".toList]
  | _ => []

/-- The second line while a schedule is typed. -/
def prompt (page : Page) (step : Nat) : List LcdCall :=
  if page = .menuSetParameters then .setCursor 0 1 :: promptText step else []

/-- A page that starts with a text in the first line. -/
def titled (text : WString) (rest : List LcdCall) : List LcdCall :=
  .clear :: .setCursor 0 0 :: .print text :: rest

def infoDrawing (k : Bed) (s : State) : List LcdCall :=
  titled (bedName k ++ ": ".toList)
    (.print (s.timeSetupSettings k) :: prompt s.menuLcd s.stepSetTime ++
      [.setCursor 0 1, .print ("Время: ".toList ++ s.actualTime)])

def typingDrawing (k : Bed) (s : State) : List LcdCall :=
  titled (bedName k ++ ": ".toList)
    (.print s.timeSetupSettingsSetup :: prompt s.menuLcd s.stepSetTime)

/-- The calls of the current page. -/
def drawing (s : State) : List LcdCall :=
  match s.menuLcd with
  | .menuHome =>
      titled "Температура: ".toList
        [.print (ofInt s.temp), .print "С".toList, .setCursor 0 1,
          .print "Влажность:   ".toList, .print (ofInt s.humidity), .print "%".toList]
  | .menuSetup => titled "Настройки".toList []
  | .menuPoliv1 => titled (bedName .bed1) []
  | .menuPoliv2 => titled (bedName .bed2) []
  | .menuPoliv3 => titled (bedName .bed3) []
  | .menuInfoPoliv1 => infoDrawing .bed1 s
  | .menuInfoPoliv2 => infoDrawing .bed2 s
  | .menuInfoPoliv3 => infoDrawing .bed3 s
  | .menuSetParameters =>
      match s.setParameters with
      | .menuPoliv1 => typingDrawing .bed1 s
      | .menuPoliv2 => typingDrawing .bed2 s
      | .menuPoliv3 => typingDrawing .bed3 s
      | _ => []
  | .menuLcdBriglight =>
      if s.lcdBrigtlight then titled "Подсветка ВЫКЛ".toList [.backlight]
      else titled "Подсветка ВКЛ".toList [.noBacklight]

/-- Append calls to the display. -/
def lcdCalls (cs : List LcdCall) (s : State) : State := { s with lcd := s.lcd ++ cs }

theorem lcdCalls_lcdCalls (cs ds : List LcdCall) (s : State) :
    lcdCalls ds (lcdCalls cs s) = lcdCalls (cs ++ ds) s := by
  simp only [lcdCalls, List.append_assoc]

theorem lcdPrint_clear (text : WString) (s : State) :
    lcdPrint 0 0 text true s = lcdCalls (titled text []) s := by
  simp [lcdPrint, lcdPrintText, lcdCall, lcdCalls, titled]

theorem setLcdTime_eq (time : WString) (s : State) :
    setLcdTime time s = lcdCalls (.print time :: prompt s.menuLcd s.stepSetTime) s := by
  by_cases h : s.menuLcd = .menuSetParameters
  · have hset : setLcdTime time s =
        lcdCalls (.setCursor 0 1 :: promptText s.stepSetTime) (lcdPrintText time s) := by
      have hpage : (lcdPrintText time s).menuLcd = .menuSetParameters := h
      simp only [setLcdTime]
      rw [if_pos hpage]
      simp only [lcdPrintText, lcdCall, lcdCalls, promptText]
      split <;> simp
    rw [hset, prompt, if_pos h]
    exact lcdCalls_lcdCalls [.print time] _ s
  · have hpage : ¬ (lcdPrintText time s).menuLcd = .menuSetParameters := h
    simp only [setLcdTime]
    rw [if_neg hpage, prompt, if_neg h]
    rfl

theorem menuInfoPoliv_eq (k : Bed) (s : State) :
    menuInfoPoliv k s = lcdCalls (infoDrawing k s) s := by
  simp only [menuInfoPoliv, lcdPrint_clear, setLcdTime_eq]
  simp [lcdCalls, lcdPrint, lcdPrintText, lcdCall, infoDrawing, titled]
  cases k <;> rfl

theorem menuSetParameters_eq (k : Bed) (s : State) :
    menuSetParameters k s = lcdCalls (typingDrawing k s) s := by
  simp only [menuSetParameters, lcdPrint_clear, setLcdTime_eq]
  simp [lcdCalls, typingDrawing, titled]

/-- **A drawing appends its calls and does nothing else.** -/
theorem menuPage_eq (s : State) : menuPage s = lcdCalls (drawing s) s := by
  unfold menuPage drawing
  split
  · simp [menuHome, lcdPrint_clear, lcdPrintText, lcdCall, lcdCalls, titled]
  · exact lcdPrint_clear _ s
  · exact lcdPrint_clear _ s
  · exact lcdPrint_clear _ s
  · exact lcdPrint_clear _ s
  · exact menuInfoPoliv_eq .bed1 s
  · exact menuInfoPoliv_eq .bed2 s
  · exact menuInfoPoliv_eq .bed3 s
  · split
    · exact menuSetParameters_eq .bed1 s
    · exact menuSetParameters_eq .bed2 s
    · exact menuSetParameters_eq .bed3 s
    · simp [lcdCalls]
  · simp only [menuLcdBriglight, lcdPrint_clear]
    split_ifs <;> simp [lcdCall, lcdCalls, titled]

/-- **`Menu()` in one line.** -/
theorem menu_eq (s : State) :
    menu s =
      { s with
        menuReftach := false
        lcd := s.lcd ++ if s.menuReftach then drawing s else [] } := by
  unfold menu
  split_ifs
  · rw [menuPage_eq]
    rfl
  · rw [List.append_nil]

theorem menu_valves (s : State) : (menu s).valves = s.valves := by
  rw [menu_eq]
  rfl

end Polivunator
