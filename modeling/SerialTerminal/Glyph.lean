/-
One cell of the grid: a font code in two colors.

Codes and colors are kept apart throughout. Plain text changes only codes, the
cursor marker swaps only codes, and a write in explicit colors replaces both.
-/
import SerialTerminal.Color
import SerialTerminal.Text

set_option autoImplicit false

namespace SerialTerminal

/-- The two colors that a written glyph takes. -/
structure Attrs where
  fg : Color
  bg : Color
  deriving DecidableEq, Inhabited

/-- Reverse video: foreground and background change places. -/
def Attrs.swapped (a : Attrs) : Attrs :=
  ⟨a.bg, a.fg⟩

@[simp] theorem Attrs.swapped_swapped (a : Attrs) : a.swapped.swapped = a := rfl

/-- One cell: the code of a shape in the font and its two colors. -/
structure Glyph where
  code : UInt8
  bg : Color
  fg : Color
  deriving DecidableEq, Inhabited

namespace Glyph

/-- The shape `code` in the given colors. -/
def ofCode (code : UInt8) (attrs : Attrs) : Glyph :=
  ⟨code, attrs.bg, attrs.fg⟩

/-- A space in the given colors. -/
def blank (attrs : Attrs) : Glyph :=
  ofCode Ascii.space attrs

/-- The two colors of a cell. -/
def attrs (g : Glyph) : Attrs :=
  ⟨g.fg, g.bg⟩

/-- The same colors with another shape. -/
def withCode (g : Glyph) (code : UInt8) : Glyph :=
  { g with code }

/-- The bytes of a cell as the video output reads them: code, background,
foreground. -/
def bytes (g : Glyph) : List UInt8 :=
  [g.code, g.bg.value, g.fg.value]

@[simp] theorem code_ofCode (c : UInt8) (a : Attrs) : (ofCode c a).code = c := rfl
@[simp] theorem attrs_ofCode (c : UInt8) (a : Attrs) : (ofCode c a).attrs = a := rfl
@[simp] theorem code_blank (a : Attrs) : (blank a).code = Ascii.space := rfl
@[simp] theorem attrs_blank (a : Attrs) : (blank a).attrs = a := rfl
@[simp] theorem code_withCode (g : Glyph) (c : UInt8) : (g.withCode c).code = c := rfl
@[simp] theorem attrs_withCode (g : Glyph) (c : UInt8) : (g.withCode c).attrs = g.attrs := rfl
@[simp] theorem withCode_code (g : Glyph) : g.withCode g.code = g := rfl
@[simp] theorem withCode_withCode (g : Glyph) (c d : UInt8) :
    (g.withCode c).withCode d = g.withCode d := rfl

/-- A glyph is its code in its colors. -/
@[simp] theorem ofCode_code_attrs (g : Glyph) : ofCode g.code g.attrs = g := rfl

end Glyph

end SerialTerminal
