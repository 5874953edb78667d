/-
The keyboard between two reports.

A report says which keys are down; a press is a key that the report before did
not contain. Each press is decoded under the modifiers that came with it, its
token is handed on, and the key is armed for auto-repeat unless the token is a
command. Keys that stay down give nothing new until their repeat is due.

Caps lock is a press too, of a key that means nothing in itself: it turns the
lock around before the other keys of the same report are decoded.

**A rollover report is no report.** It changes nothing, so keys held across it
count neither as released nor as pressed anew.
-/
import SerialTerminal.Keyboard.Decode
import SerialTerminal.Keyboard.Repeat

set_option autoImplicit false

namespace SerialTerminal

/-- What is remembered of the keyboard. -/
structure Keyboard where
  layout : Layout
  /-- The last report that said something. -/
  previous : KeyReport
  capsLock : Bool
  /-- The lamps as they should be. -/
  leds : UInt8
  /-- The lamps as they were last sent, if they were. -/
  sentLeds : Option UInt8
  repeats : RepeatSlots
  deriving DecidableEq

namespace Keyboard

/-- A keyboard on which no key is down, with the given layout. -/
def create (layout : Layout) : Keyboard where
  layout := layout
  previous := .released
  capsLock := false
  leds := 0
  sentLeds := none
  repeats := .empty

instance : Inhabited Keyboard := ⟨create default⟩

/-- Changes the layout. Keys that are down keep what they were decoded to. -/
def setLayout (k : Keyboard) (layout : Layout) : Keyboard :=
  { k with layout }

/-- The number of keys that will repeat. -/
def held (k : Keyboard) : Nat :=
  k.repeats.active

/-! ## Reports -/

/-- The report shows the caps lock key newly pressed. -/
def pressesCapsLock (k : Keyboard) (report : KeyReport) : Bool :=
  report.contains KeyReport.capsLockKey && !k.previous.contains KeyReport.capsLockKey

/-- A report turns caps lock around when it shows the key newly pressed. -/
def capsLockAfter (k : Keyboard) (report : KeyReport) : Bool :=
  k.capsLock != k.pressesCapsLock report

/-- The bit of the caps lock lamp. -/
def capsLockLed : UInt8 := 0x02

/-- The lamps after a report. Only a press of caps lock changes them, and it changes
one bit: set when the lock is on after the press, cleared when it is off. -/
def ledsAfter (k : Keyboard) (report : KeyReport) : UInt8 :=
  if k.pressesCapsLock report then
    if k.capsLockAfter report then k.leds ||| capsLockLed else k.leds &&& ~~~capsLockLed
  else k.leds

/-- The keys that are down now and were not before, in the order of the report,
each with the token it decodes to. Keys that mean nothing are left out. -/
def presses (k : Keyboard) (report : KeyReport) : List (UInt8 × KeyToken) :=
  (report.pressed.filter fun key => !k.previous.contains key).filterMap fun key =>
    (KeyToken.decode? k.layout key report.modifiers (k.capsLockAfter report)).map (key, ·)

/-- Arms a pressed key for auto-repeat, if its token repeats and there is a
slot. -/
def armPress (now : Instant) (slots : RepeatSlots) (press : UInt8 × KeyToken) : RepeatSlots :=
  if press.2.isAlt then slots
  else (slots.arm? press.1 press.2 now).getD slots

/-- Takes a report and returns the tokens of the keys it shows newly pressed. -/
def report (k : Keyboard) (report : KeyReport) (now : Instant) : Keyboard × List KeyToken :=
  if report.isRollover then (k, [])
  else
    let presses := k.presses report
    ({ k with
        previous := report
        capsLock := k.capsLockAfter report
        leds := k.ledsAfter report
        repeats := presses.foldl (armPress now) (k.repeats.releaseMissing report) },
      presses.map (·.2))

/-- The tokens of the held keys that are due. -/
def fireRepeats (k : Keyboard) (now : Instant) : Keyboard × List KeyToken :=
  ({ k with repeats := (k.repeats.fire now).1 }, (k.repeats.fire now).2)

/-! ## Lamps -/

/-- The lamps to send, if they differ from what was sent before. The first time
there is nothing to compare with, and they are sent. -/
def takeLeds (k : Keyboard) : Keyboard × Option UInt8 :=
  if k.sentLeds = some k.leds then (k, none)
  else ({ k with sentLeds := some k.leds }, some k.leds)

end Keyboard

/-! ## The attached device -/

/-- An attached keyboard as a state that is asked and told. -/
class KeyboardHost (κ : Type) where
  /-- The next report, if one has arrived. -/
  nextReport : κ → κ × Option KeyReport
  /-- Sets the lamps. -/
  setLeds : κ → UInt8 → κ

end SerialTerminal
