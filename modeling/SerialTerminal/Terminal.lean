/-
The terminal: a screen, a cursor, the colors being written, and a parser.

The screen is the cell memory as displayed, so the cursor marker is in it. Two
functions frame every change: `lift` takes the marker off the screen and `place`
lays it over the cursor again. **`edit` is the only way in** for the functions
that change cells; what happens between its two ends sees the true glyphs.

`Terminal.cell?` is the logical view, the cell with the marker taken away. It is
what the host has written; the screen is what the eye sees.
-/
import SerialTerminal.Escape.Command
import SerialTerminal.Screen.Draw
import SerialTerminal.Screen.Marker
import SerialTerminal.Settings

set_option autoImplicit false

namespace SerialTerminal

/-- An interpreter bound to a grid of `cols` by `rows` cells. -/
@[ext] structure Terminal (cols rows : Nat) where
  /-- The cells as displayed, the marker included. -/
  screen : Screen cols rows
  cursor : Cursor
  /-- The position that a restore goes back to. -/
  saved : Cursor
  /-- The colors that are written from now on. -/
  attrs : Attrs
  /-- The configured colors. -/
  colors : ColorScheme
  policy : LinePolicy
  parser : Parser
  marker : Marker

namespace Terminal

variable {cols rows : Nat}

/-- A blank terminal with the given settings, the cursor hidden at home. -/
def create (cols rows : Nat) (settings : Settings) : Terminal cols rows where
  screen := (Screen.blank cols rows settings.colors.text).setStatus
    settings.statusLine settings.colors.text
  cursor := .home
  saved := .home
  attrs := settings.colors.text
  colors := settings.colors
  policy := settings.policy
  parser := .ground
  marker := {}

/-! ## Looking -/

/-- The number of addressable rows. -/
def lines (t : Terminal cols rows) : Nat :=
  t.screen.lines

/-- A sequence from the host has begun and is not complete. -/
def inSequence (t : Terminal cols rows) : Bool :=
  t.parser.inSequence

/-- The cursor is shown. -/
def cursorVisible (t : Terminal cols rows) : Bool :=
  t.marker.visible

/-- **The logical view**: a cell with the marker taken away. -/
def cell? (t : Terminal cols rows) (x y : Nat) : Option Glyph :=
  (t.screen.cell? x y).map fun g => g.withCode ((t.marker.covered? ⟨x, y⟩).getD g.code)

/-! ## Framing a change -/

/-- The terminal with its marker off the screen. -/
def lift (t : Terminal cols rows) : Terminal cols rows :=
  { t with marker := (t.marker.lift t.screen).1, screen := (t.marker.lift t.screen).2 }

/-- The terminal with its marker over the cursor, if it is to be shown. -/
def place (t : Terminal cols rows) : Terminal cols rows :=
  { t with
    marker := (t.marker.place t.screen t.cursor).1
    screen := (t.marker.place t.screen t.cursor).2 }

/-- Makes a change with the marker off the screen. -/
def edit (t : Terminal cols rows) (change : Terminal cols rows → Terminal cols rows) :
    Terminal cols rows :=
  (change t.lift).place

/-! ## The cursor -/

/-- Moves the cursor to a position, or to the nearest one that is addressable. -/
def moveTo (t : Terminal cols rows) (x y : Nat) : Terminal cols rows :=
  { t with cursor := ⟨min x (cols - 1), min y (t.lines - 1)⟩ }

/-- Brings the cursor back among the addressable cells. -/
def clampCursor (t : Terminal cols rows) : Terminal cols rows :=
  t.moveTo t.cursor.x t.cursor.y

/-- Blanks the addressable rows in the given colors and takes the cursor home. -/
def clearPage (t : Terminal cols rows) (attrs : Attrs) : Terminal cols rows :=
  { t with screen := t.screen.clear attrs, cursor := .home }

/-- One row down. In the last addressable row the page moves up instead, and a
blank row in the current colors opens at the bottom. -/
def lineFeed (t : Terminal cols rows) : Terminal cols rows :=
  if t.cursor.y + 1 < t.lines then
    { t with cursor := ⟨t.cursor.x, t.cursor.y + 1⟩ }
  else
    { t with
      cursor := ⟨t.cursor.x, t.lines - 1⟩
      screen := t.screen.scrollUp 1 t.attrs }

/-- Back to the first column. -/
def carriageReturn (t : Terminal cols rows) : Terminal cols rows :=
  { t with cursor := ⟨0, t.cursor.y⟩ }

end Terminal

end SerialTerminal
