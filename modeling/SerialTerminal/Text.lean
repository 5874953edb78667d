/-
Text as the grid sees it: a list of bytes.

A cell holds one byte, the index of a shape in the font, so every length and
every clipping rule of this library counts bytes. Names and labels are written
as `String` and pass through `Text.encode` once, on their way to the grid; a
character outside ASCII then takes as many cells as its UTF-8 encoding has
bytes.

The second half names the few byte values that the library compares with.
-/
set_option autoImplicit false

namespace SerialTerminal

/-! ## Encoding -/

namespace Text

/-- The UTF-8 bytes of a string, one per cell. -/
def encode (s : String) : List UInt8 :=
  s.toList.flatMap String.utf8EncodeChar

@[simp] theorem encode_empty : encode "" = [] := rfl

end Text

/-! ## Byte values -/

namespace Ascii

/-- Rings the bell. -/
@[match_pattern] abbrev bel : UInt8 := 0x07
/-- Steps one column back. -/
@[match_pattern] abbrev bs : UInt8 := 0x08
/-- Runs to the next tab stop. -/
@[match_pattern] abbrev ht : UInt8 := 0x09
/-- Steps one row down. -/
@[match_pattern] abbrev lf : UInt8 := 0x0A
/-- Clears the page. -/
@[match_pattern] abbrev ff : UInt8 := 0x0C
/-- Returns to the first column. -/
@[match_pattern] abbrev cr : UInt8 := 0x0D
/-- Opens an escape sequence. -/
@[match_pattern] abbrev esc : UInt8 := 0x1B
/-- The blank. -/
@[match_pattern] abbrev space : UInt8 := 0x20

/-- The codes `0x20` to `0x7E`, which a font draws as characters. -/
def isPrintable (b : UInt8) : Bool :=
  0x20 ≤ b && b ≤ 0x7E

end Ascii

end SerialTerminal
