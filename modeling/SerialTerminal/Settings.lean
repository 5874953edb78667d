/-
What the operator can set.

Settings are edited on the configuration surface as a draft and come into effect
when it is left. Nothing here outlives the power switch.
-/
import SerialTerminal.Glyph
import SerialTerminal.Serial.Line

set_option autoImplicit false

namespace SerialTerminal

/-- How the interpreter ends lines. -/
structure LinePolicy where
  /-- Writing the last column moves on to the next row. -/
  autowrap : Bool := true
  /-- A backspace blanks the cell that it moves onto. -/
  backspaceErases : Bool := false
  /-- A carriage return also feeds a line. -/
  crImpliesLf : Bool := false
  /-- A line feed also returns to the first column. -/
  lfImpliesCr : Bool := false
  deriving DecidableEq

/-- The four colors that can be chosen. -/
structure ColorScheme where
  textFg : Color := .white
  textBg : Color := .semiBlue
  statusFg : Color := .black
  statusBg : Color := .lightGray
  deriving DecidableEq

/-- The colors of text, and of a rendition reset. -/
def ColorScheme.text (c : ColorScheme) : Attrs := ⟨c.textFg, c.textBg⟩

/-- The colors of the status row. -/
def ColorScheme.status (c : ColorScheme) : Attrs := ⟨c.statusFg, c.statusBg⟩

/-- Everything that can be set. -/
structure Settings where
  serial : SerialConfig := {}
  policy : LinePolicy := {}
  /-- The last row is reserved for the status line. -/
  statusLine : Bool := true
  colors : ColorScheme := {}
  deriving DecidableEq

end SerialTerminal
