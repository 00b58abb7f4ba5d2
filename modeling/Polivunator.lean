import Polivunator.Library.Labelled
import Polivunator.Library.Framing
import Polivunator.Library.Fields
import Polivunator.Library.Registers
import Polivunator.Arduino.WString
import Polivunator.Arduino.SmartDelay
import Polivunator.Modem.SmsWork
import Polivunator.Sketch.Loop
import Polivunator.Valve.Controller
import Polivunator.Valve.Refine
import Polivunator.Valve.History
import Polivunator.Valve.Reason
import Polivunator.Valve.Off
import Polivunator.Modem.Frames
import Polivunator.Modem.Units
import Polivunator.Modem.Texts
import Polivunator.Modem.Slots
import Polivunator.Modem.Resync
import Polivunator.Messages.GetValue
import Polivunator.Messages.Schedules
import Polivunator.Messages.Spelling
import Polivunator.Keypad.Entry
import Polivunator.Keypad.Keys
import Polivunator.Keypad.Refine
import Polivunator.Keypad.Transaction
import Polivunator.Keypad.Repeat
import Polivunator.Display.Fresh
import Polivunator.Clock.Timeline
import Polivunator.Clock.Fresh
import Polivunator.Android.MainActivity
import Polivunator.Android.Dialogs
import Polivunator.Library.Bits
import Polivunator.Library.Waveform
import Polivunator.Remote.Irparams
import Polivunator.Remote.Record
import Polivunator.Remote.Nec
import Polivunator.Remote.Receiver
import Polivunator.Remote.Turns
import Polivunator.Remote.Heard
import Polivunator.Remote.Overflow
import Polivunator.Sketch.Unseen
import Polivunator.Display.Unseen
import Polivunator.Remote.Machine
import Polivunator.Keypad.Navigation
import Polivunator.Remote.Schedule
import Polivunator.Library.Calendar
import Polivunator.Rtc.Gettime
import Polivunator.Rtc.Reading
import Polivunator.Rtc.Registers
import Polivunator.Rtc.Unix
import Polivunator.Lcd.Glass
import Polivunator.Lcd.Pages
import Polivunator.Library.Hd44780
import Polivunator.Lcd.LiquidCrystal
import Polivunator.Lcd.Russian
import Polivunator.Lcd.Renders
import Polivunator.Sensor.Frame
import Polivunator.Sensor.Samples
import Polivunator.Lcd.Lamp
