/-
The operating modes and the status line that names them.

Keystrokes go to one of three places, and the operator must see to which: the
status line shows the mode on the left and the settings of the serial line on
the right.
-/
import SerialTerminal.Terminal.Page

set_option autoImplicit false

namespace SerialTerminal

/-- Where keystrokes go. -/
inductive Mode where
  /-- To the host. -/
  | online
  /-- Back into the interpreter. -/
  | loopback
  /-- To the configuration surface. -/
  | config
  deriving DecidableEq

instance : Inhabited Mode := ⟨.online⟩

/-- The name of a mode on the status line. -/
def Mode.label : Mode → String
  | online => "ONLINE"
  | loopback => "LOCAL"
  | config => "CONFIG"

/-- Fills the status row: mode on the left, line settings on the right. -/
def Terminal.drawStatus {cols rows : Nat} (t : Terminal cols rows) (mode : Mode)
    (serial : SerialConfig) : Terminal cols rows :=
  t.writeStatus (Text.encode mode.label) (Text.encode serial.text)

end SerialTerminal
