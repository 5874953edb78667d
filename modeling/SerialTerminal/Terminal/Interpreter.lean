/-
Carrying out what the host sends.

One byte at a time: the parser says what it amounts to, and the terminal does
it with the marker lifted. Everything is a function of the terminal and the
byte. The bell stands apart from that: a byte rings it or does not
(`rings`), and what the terminal becomes (`receive`) does not depend on which
bell is connected.

**Nothing here moves the cursor off the addressable cells.** Motion stops at the
edges, and printing in the last column either wraps at once or stays there.
-/
import SerialTerminal.Bell
import SerialTerminal.Terminal

set_option autoImplicit false

namespace SerialTerminal

namespace Terminal

variable {cols rows : Nat}

/-! ## Characters and controls -/

/-- Tab stops stand at the multiples of this column. -/
def tabWidth : Nat := 8

/-- Draws a character at the cursor and steps on. After the last column the
cursor wraps to the next row, or stays where it is when wrapping is off. -/
def putChar (t : Terminal cols rows) (code : UInt8) : Terminal cols rows :=
  let t := { t with screen := t.screen.put t.cursor.x t.cursor.y (.ofCode code t.attrs) }
  if t.cursor.x + 1 < cols then { t with cursor := ⟨t.cursor.x + 1, t.cursor.y⟩ }
  else if t.policy.autowrap then t.carriageReturn.lineFeed
  else t

/-- One column back, at the first column none; under the policy the cell that is
reached is blanked. -/
def backspace (t : Terminal cols rows) : Terminal cols rows :=
  let t := { t with cursor := ⟨t.cursor.x - 1, t.cursor.y⟩ }
  if t.policy.backspaceErases then
    { t with screen := t.screen.put t.cursor.x t.cursor.y (.blank t.attrs) }
  else t

/-- On to the next tab stop. Where no stop is left in the row the cursor stays. -/
def tab (t : Terminal cols rows) : Terminal cols rows :=
  let next := (t.cursor.x / tabWidth + 1) * tabWidth
  if next < cols then { t with cursor := ⟨next, t.cursor.y⟩ } else t

/-- Carries out a control byte. -/
def control (t : Terminal cols rows) : Control → Terminal cols rows
  | .bell => t
  | .backspace => t.backspace
  | .tab => t.tab
  | .carriageReturn =>
    let t := t.carriageReturn
    if t.policy.crImpliesLf then t.lineFeed else t
  | .lineFeed =>
    let t := t.lineFeed
    if t.policy.lfImpliesCr then t.carriageReturn else t
  | .formFeed => t.clearPage t.attrs

/-! ## Control sequences -/

/-- Changes the colors that are written from now on. -/
def render (t : Terminal cols rows) : Rendition → Terminal cols rows
  | .plain => { t with attrs := t.colors.text }
  | .reverse => { t with attrs := t.attrs.swapped }
  | .foreground c => { t with attrs := { t.attrs with fg := c } }
  | .background c => { t with attrs := { t.attrs with bg := c } }

/-- Blanks part of the cursor's row in the current colors. -/
def eraseLine (t : Terminal cols rows) (extent : Extent) : Terminal cols rows :=
  let ⟨x, y⟩ := t.cursor
  match extent with
  | .toEnd => { t with screen := t.screen.eraseLineFrom x y t.attrs }
  | .toStart => { t with screen := t.screen.eraseLineTo x y t.attrs }
  | .whole => { t with screen := t.screen.eraseLine y t.attrs }

/-- Blanks part of the page in the current colors. Only when all of it goes does
the cursor go home. -/
def erasePage (t : Terminal cols rows) (extent : Extent) : Terminal cols rows :=
  let ⟨x, y⟩ := t.cursor
  match extent with
  | .toEnd => { t with screen := t.screen.eraseBelow x y t.attrs }
  | .toStart => { t with screen := t.screen.eraseAbove x y t.attrs }
  | .whole => t.clearPage t.attrs

/-- Carries out what a control sequence asks for. -/
def run (t : Terminal cols rows) : Command → Terminal cols rows
  | .cursorUp n => { t with cursor := ⟨t.cursor.x, t.cursor.y - n⟩ }
  | .cursorDown n => t.moveTo t.cursor.x (t.cursor.y + n)
  | .cursorRight n => t.moveTo (t.cursor.x + n) t.cursor.y
  | .cursorLeft n => { t with cursor := ⟨t.cursor.x - n, t.cursor.y⟩ }
  | .cursorTo x y => t.moveTo x y
  | .eraseLine extent => t.eraseLine extent
  | .erasePage extent => t.erasePage extent
  | .scrollUp n => { t with screen := t.screen.scrollUp n t.attrs }
  | .showCursor visible => { t with marker := { t.marker with visible } }
  | .render r => t.render r
  | .saveCursor => { t with saved := t.cursor }
  | .restoreCursor => t.moveTo t.saved.x t.saved.y

/-- Carries out what a byte amounts to. -/
def perform (t : Terminal cols rows) : Action → Terminal cols rows
  | .none => t
  | .print code => t.putChar code
  | .control b => (Control.ofByte? b).elim t t.control
  | .csi c => c.command?.elim t t.run

/-! ## Bytes from the host -/

/-- Takes one byte with the marker off the screen: the parser reads it and its
meaning is carried out. -/
def interpret (t : Terminal cols rows) (b : UInt8) : Terminal cols rows :=
  { t with parser := (t.parser.feed b).1 }.perform (t.parser.feed b).2

/-- **The terminal after one byte.** -/
def receive (t : Terminal cols rows) (b : UInt8) : Terminal cols rows :=
  t.edit (·.interpret b)

/-- The byte rings the bell: it is a bell byte outside any sequence. -/
def rings (t : Terminal cols rows) (b : UInt8) : Bool :=
  (t.parser.feed b).2 = .control Ascii.bel

variable {β : Type} [Bell β]

/-- Takes one byte from the host, with a bell at hand. -/
def handle (t : Terminal cols rows) (b : UInt8) (bell : β) : Terminal cols rows × β :=
  (t.receive b, if t.rings b then Bell.ring bell else bell)

/-- Takes a run of bytes. -/
def print (t : Terminal cols rows) : List UInt8 → β → Terminal cols rows × β
  | [], bell => (t, bell)
  | b :: bytes, bell => (t.handle b bell).1.print bytes (t.handle b bell).2

/-! ## Runs of bytes -/

/-- **What the terminal becomes does not depend on the bell.** -/
theorem fst_print (t : Terminal cols rows) (bytes : List UInt8) (bell : β) :
    (t.print bytes bell).1 = bytes.foldl receive t := by
  induction bytes generalizing t bell with
  | nil => rfl
  | cons b bytes ih => rw [print, ih]; rfl

/-- Where a run of bytes is cut makes no difference. -/
theorem print_append (t : Terminal cols rows) (as bs : List UInt8) (bell : β) :
    t.print (as ++ bs) bell = (t.print as bell).1.print bs (t.print as bell).2 := by
  induction as generalizing t bell with
  | nil => rfl
  | cons a as ih => simp only [List.cons_append, print, ih]

end Terminal

end SerialTerminal
