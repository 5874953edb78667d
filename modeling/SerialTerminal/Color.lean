/-
Colors and the two lists they are chosen from.

A color is the pixel value that the video output puts on the wire, eight bits
with three for red, three for green and two for blue. Every byte is a color, so
nothing here can fail; the **palette** only decides what the configuration
surface offers, and the **ANSI list** only what the codes 30 to 37 and 40 to 47
of a rendition sequence mean.
-/
set_option autoImplicit false

namespace SerialTerminal

/-- A pixel value, three bits of red, three of green and two of blue. -/
structure Color where
  value : UInt8
  deriving DecidableEq, Inhabited

namespace Color

/-! ## Named colors -/

def black : Color := ⟨0x00⟩
def darkBlue : Color := ⟨0x02⟩
def semiBlue : Color := ⟨0x01⟩
def blue : Color := ⟨0x03⟩
def darkGreen : Color := ⟨0x10⟩
def green : Color := ⟨0x1C⟩
def darkCyan : Color := ⟨0x12⟩
def cyan : Color := ⟨0x1F⟩
def darkRed : Color := ⟨0x80⟩
def red : Color := ⟨0xE0⟩
def darkMagenta : Color := ⟨0x82⟩
def magenta : Color := ⟨0xE3⟩
def brown : Color := ⟨0x88⟩
def yellow : Color := ⟨0xFC⟩
def orange : Color := ⟨0xF0⟩
def pink : Color := ⟨0xF2⟩
def lightBlue : Color := ⟨0x5B⟩
def lightGreen : Color := ⟨0x7D⟩
def lightRed : Color := ⟨0xED⟩
def purple : Color := ⟨0x62⟩
def darkGray : Color := ⟨0x49⟩
def gray : Color := ⟨0x92⟩
def lightGray : Color := ⟨0xB6⟩
def white : Color := ⟨0xFF⟩

/-! ## The two lists -/

/-- What the configuration surface offers, in the order it steps through. -/
def palette : List Color :=
  [black, darkBlue, semiBlue, blue, darkGreen, green, darkCyan, cyan,
   darkRed, red, darkMagenta, magenta, brown, yellow, orange, pink,
   lightBlue, lightGreen, lightRed, purple, darkGray, gray, lightGray, white]

/-- The eight colors of the rendition codes 30 to 37 and 40 to 47. -/
def ansi : List Color :=
  [black, red, green, yellow, blue, magenta, cyan, white]

/-- The entry of the ANSI list with the given number, if there is one. -/
def ansi? (index : Nat) : Option Color :=
  ansi[index]?

/-- The palette entry after a color, the first one after the last. A color
that the palette does not hold also steps to the first entry. -/
def next (c : Color) : Color :=
  match palette.idxOf? c with
  | some i => (palette[i + 1]?).getD black
  | none => black

end Color

end SerialTerminal
