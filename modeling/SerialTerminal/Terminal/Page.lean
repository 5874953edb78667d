/-
What the rest of the program does to the screen.

The host is not the only one that writes. The console shows a banner, resets and
reconfigures the terminal, and fills the status row; the configuration surface
draws its page. All of it goes through `edit`, so the marker survives, and none
of it goes through the parser, so it cannot be mistaken for host output.
-/
import SerialTerminal.Terminal

set_option autoImplicit false

namespace SerialTerminal

namespace Terminal

variable {cols rows : Nat}

/-! ## Starting over -/

/-- The identification shown at startup. -/
def bannerText : String := "serterm v0.1.0"

/-- Clears the page in the configured colors, forgets the saved position and any
half-received sequence, and takes the cursor home. -/
def reset (t : Terminal cols rows) : Terminal cols rows :=
  t.edit fun t =>
    { t.clearPage t.colors.text with
      parser := .ground
      attrs := t.colors.text
      saved := .home }

/-- Resets, shows the identification in the middle of the first row, and shows
the cursor two rows below it. -/
def banner (t : Terminal cols rows) : Terminal cols rows :=
  let t := t.reset.edit fun t =>
    let text := Text.encode bannerText
    { t with
      screen := t.screen.writeColored 0 ((cols - text.length) / 2) t.attrs text }.moveTo 0 2
  { t with marker := { t.marker with visible := true } }.place

/-! ## Settings -/

/-- Takes over policy, colors and status row; text is written in the new colors
from now on. -/
def apply (t : Terminal cols rows) (settings : Settings) : Terminal cols rows :=
  t.edit fun t =>
    { t with
      policy := settings.policy
      colors := settings.colors
      attrs := settings.colors.text
      screen := t.screen.setStatus settings.statusLine settings.colors.text }.clampCursor

/-- Takes over the line policy alone. -/
def setPolicy (t : Terminal cols rows) (policy : LinePolicy) : Terminal cols rows :=
  { t with policy }

/-- Reserves or releases the status row. -/
def setStatusLine (t : Terminal cols rows) (enabled : Bool) : Terminal cols rows :=
  t.edit fun t => { t with screen := t.screen.setStatus enabled t.colors.text }.clampCursor

/-! ## Drawing -/

/-- Makes a change to the screen alone. -/
def editScreen (t : Terminal cols rows) (change : Screen cols rows → Screen cols rows) :
    Terminal cols rows :=
  t.edit fun t => { t with screen := change t.screen }

/-- Fills the status row in the status colors. -/
def writeStatus (t : Terminal cols rows) (left right : List UInt8) : Terminal cols rows :=
  t.editScreen (·.writeStatus left right t.colors.status)

/-- Clears the page in the given colors and takes the cursor home. The colors of
text stay what they are. -/
def clearWith (t : Terminal cols rows) (attrs : Attrs) : Terminal cols rows :=
  t.edit (·.clearPage attrs)

/-- Writes text in the colors that the cells have. -/
def writeText (t : Terminal cols rows) (row col : Nat) (text : List UInt8) :
    Terminal cols rows :=
  t.editScreen (·.writeText row col text)

/-- Writes text in the given colors. -/
def writeColored (t : Terminal cols rows) (row col : Nat) (attrs : Attrs)
    (text : List UInt8) : Terminal cols rows :=
  t.editScreen (·.writeColored row col attrs text)

/-- Draws a frame. -/
def drawBox (t : Terminal cols rows) (row col width height : Nat) (attrs : Attrs) :
    Terminal cols rows :=
  t.editScreen (·.drawBox row col width height attrs)

end Terminal

end SerialTerminal
