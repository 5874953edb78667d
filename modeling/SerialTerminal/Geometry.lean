/-
The grid that the video mode gives.

The library works at every size; these are the numbers of the one that is built
in, a 640 by 480 picture of characters 8 pixels wide and 16 high, which has room
for eighty columns and thirty rows.
-/
set_option autoImplicit false

namespace SerialTerminal.Geometry

/-- Pixels across the picture. -/
def width : Nat := 640

/-- Pixels down the picture. -/
def height : Nat := 480

/-- Pixels across a character. -/
def fontWidth : Nat := 8

/-- Pixels down a character. -/
def fontHeight : Nat := 16

/-- Characters across the picture. -/
def columns : Nat := width / fontWidth

/-- Rows of characters, the status row included. -/
def rows : Nat := height / fontHeight

/-- Bytes of storage for one row: a code and two colors per cell. -/
def rowBytes : Nat := columns * 3

end SerialTerminal.Geometry
