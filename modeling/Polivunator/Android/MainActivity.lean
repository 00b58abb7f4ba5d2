import Polivunator.Keypad.Entry
import Polivunator.Library.Labelled

/-!
# The phone app

The part of `MainActivity` that sets a schedule.  A button runs `SetTimePoliv`,
which notes the number of the bed in `m_sSendData` and shows a time dialog.  The
dialog knows nothing of the bed: when it is confirmed, `onTimeSet` sends
whatever `m_sSendData` holds then, and the time.

An `App` is the activity with the dialogs it has shown, the last one on top.
Every dialog is kept with the button that opened it, which the program itself
does not do; nothing the activity does depends on it.

`formatDateTime` is the phone's and writes a time in the phone's conventions, so
it is a parameter.
-/

namespace Polivunator.Android

open Labelled

/-! ### The activity -/

/-- `R.id`, of the views `SetTimePoliv` tells apart. -/
inductive ViewId
  | poliv1
  | poliv2
  | poliv3
  deriving DecidableEq

/-- The fields of `MainActivity`. -/
structure MainActivity where
  sendData : WString := []
  /-- The time of day in `dateAndTime`, `Calendar.getInstance()` at first. -/
  dateAndTime : Time

/-- A time dialog, with the time it shows when it opens. -/
structure TimePickerDialog where
  time : Time

/-- What is handed to `sendTextMessage`. -/
structure Sms where
  tell : WString
  message : WString

namespace MainActivity

/-- `setTime()`: the dialog it shows. -/
def setTime (a : MainActivity) : TimePickerDialog := ⟨a.dateAndTime⟩

/-- `case R.id.poliv1`. -/
def casePoliv1 (a : MainActivity) : MainActivity × List TimePickerDialog :=
  let a := { a with sendData := "0".toList }
  (a, [a.setTime])

/-- `case R.id.poliv3`. -/
def casePoliv3 (a : MainActivity) : MainActivity × List TimePickerDialog :=
  let a := { a with sendData := "2".toList }
  (a, [a.setTime])

/-- `case R.id.poliv2`, which goes on into the next one: there is no `break`. -/
def casePoliv2 (a : MainActivity) : MainActivity × List TimePickerDialog :=
  let a := { a with sendData := "1".toList }
  let shown := a.setTime
  let r := casePoliv3 a
  (r.1, shown :: r.2)

/-- `SetTimePoliv(v)`: the activity afterwards and the dialogs shown, in order. -/
def setTimePoliv (v : ViewId) (a : MainActivity) : MainActivity × List TimePickerDialog :=
  match v with
  | .poliv1 => casePoliv1 a
  | .poliv2 => casePoliv2 a
  | .poliv3 => casePoliv3 a

variable (formatDateTime : Time → WString)

/-- `sendSmsMessage(message)`, given the number in the settings and whether the
phone throws: then nothing is sent and a toast is shown. -/
def sendSmsMessage (tell : WString) (throws : Bool) (message : WString) : List Sms :=
  if throws then [] else [⟨tell, message⟩]

/-- `setInitialDateTime()`. -/
def setInitialDateTime (tell : WString) (throws : Bool) (a : MainActivity) : List Sms :=
  sendSmsMessage tell throws (a.sendData ++ " ".toList ++ formatDateTime a.dateAndTime)

/-- `onTimeSet`, with the time chosen. -/
def onTimeSet (time : Time) (tell : WString) (throws : Bool) (a : MainActivity) :
    MainActivity × List Sms :=
  let a := { a with dateAndTime := time }
  (a, setInitialDateTime formatDateTime tell throws a)

end MainActivity

/-! ### The app and its dialogs -/

/-- The view of a bed's button. -/
def buttonOf : Bed → ViewId
  | .bed1 => .poliv1
  | .bed2 => .poliv2
  | .bed3 => .poliv3

/-- What the user does. -/
inductive Action
  | press (k : Bed)
  /-- Confirm the dialog on top, with the number in the settings then and whether
  the phone throws. -/
  | confirm (time : Time) (tell : WString) (throws : Bool)
  /-- Cancel the dialog on top. -/
  | cancel

structure App where
  activity : MainActivity
  /-- The open dialogs, the last one first, with their buttons. -/
  dialogs : List (Bed × TimePickerDialog) := []

namespace App

variable (formatDateTime : Time → WString)

/-- One action.  With no dialog open there is none to confirm or cancel. -/
def step (app : App) : Action → App
  | .press k =>
      let r := app.activity.setTimePoliv (buttonOf k)
      ⟨r.1, (r.2.map (fun d => (k, d))).reverse ++ app.dialogs⟩
  | .confirm time tell throws =>
      match app.dialogs with
      | [] => app
      | _ :: ds => ⟨(app.activity.onTimeSet formatDateTime time tell throws).1, ds⟩
  | .cancel => { app with dialogs := app.dialogs.tail }

/-- What it sends. -/
def sent (app : App) : Action → List Sms
  | .confirm time tell throws =>
      match app.dialogs with
      | [] => []
      | _ :: _ => (app.activity.onTimeSet formatDateTime time tell throws).2
  | _ => []

/-- The app after some actions, started at a time of day. -/
def after (now : Time) (as : List Action) : App :=
  run (step formatDateTime) { activity := { dateAndTime := now } } as

/-- What it has sent. -/
def messages (now : Time) (as : List Action) : List Sms :=
  history (step formatDateTime) (sent formatDateTime) { activity := { dateAndTime := now } } as

end App

end Polivunator.Android
