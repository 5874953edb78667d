/-
Keyboard layouts: what is printed on the keys.

A key has two legends, one that it means by itself and one that it means with
shift. A legend is a character or a special key; many keys have none. **The two
layouts differ in four keys**, so there is one table for all of them and a short
one of what is different.

The pound sign has no ASCII code. A key that would need one means nothing.
-/
import SerialTerminal.Keyboard.Token

set_option autoImplicit false

namespace SerialTerminal

/-- What a key means. -/
inductive Legend where
  | char (b : UInt8)
  | special (k : SpecialKey)
  deriving DecidableEq

/-- A legend as one byte: the character, or the code of the special key. -/
def Legend.code : Legend → UInt8
  | char b => b
  | special k => k.code

/-- The legends of a key, without shift and with it. -/
structure Keycap where
  plain : Option Legend
  shifted : Option Legend
  deriving DecidableEq

namespace Keycap

/-- A key with nothing on it. -/
def unmapped : Keycap := ⟨none, none⟩

/-- A key with two characters. -/
def chars (plain shifted : Char) : Keycap :=
  ⟨some (.char plain.toUInt8), some (.char shifted.toUInt8)⟩

/-- A key with the same character in both positions. -/
def char (c : Char) : Keycap := chars c c

/-- A key with a control byte in both positions. -/
def control (b : UInt8) : Keycap := ⟨some (.char b), some (.char b)⟩

/-- A key with a character that shift takes away. -/
def unshiftedOnly (c : Char) : Keycap := ⟨some (.char c.toUInt8), none⟩

/-- A special key. -/
def special (k : SpecialKey) : Keycap := ⟨some (.special k), some (.special k)⟩

/-- One of the two legends. -/
def legend? (cap : Keycap) (shifted : Bool) : Option Legend :=
  if shifted then cap.shifted else cap.plain

end Keycap

/-! ## The tables -/

/-- The layouts that can be chosen. -/
inductive Layout where
  | us
  | uk
  deriving DecidableEq

instance : Inhabited Layout := ⟨.us⟩

namespace Layout

/-- The usage code of the first letter. -/
def firstLetter : UInt8 := 0x04

/-- The usage code of the last letter. -/
def lastLetter : UInt8 := 0x1D

/-- The letter keys, in alphabetical order from `firstLetter` on. -/
def letterKey (usage : UInt8) : Keycap :=
  ⟨some (.char (usage - firstLetter + 0x61)), some (.char (usage - firstLetter + 0x41))⟩

/-- The keys that are neither letters nor function keys, as both layouts would
have them if they did not differ. -/
def commonKey : UInt8 → Keycap
  -- the digits and their symbols
  | 0x1E => .chars '1' '!'
  | 0x1F => .chars '2' '@'
  | 0x20 => .chars '3' '#'
  | 0x21 => .chars '4' '$'
  | 0x22 => .chars '5' '%'
  | 0x23 => .chars '6' '^'
  | 0x24 => .chars '7' '&'
  | 0x25 => .chars '8' '*'
  | 0x26 => .chars '9' '('
  | 0x27 => .chars '0' ')'
  -- return, escape, backspace, tab and the space bar
  | 0x28 => .control Ascii.cr
  | 0x29 => .control Ascii.esc
  | 0x2A => .control Ascii.bs
  | 0x2B => .control Ascii.ht
  | 0x2C => .char ' '
  -- the symbols around the letters
  | 0x2D => .chars '-' '_'
  | 0x2E => .chars '=' '+'
  | 0x2F => .chars '[' '\x7b'
  | 0x30 => .chars ']' '\x7d'
  | 0x31 => .chars '\x5c' '|'
  | 0x32 => .chars '#' '~'
  | 0x33 => .chars ';' ':'
  | 0x34 => .chars '\x27' '\x22'
  | 0x35 => .chars '\x60' '~'
  | 0x36 => .chars ',' '<'
  | 0x37 => .chars '.' '>'
  | 0x38 => .chars '/' '?'
  -- function keys
  | 0x3A => .special .f1
  | 0x3B => .special .f2
  | 0x3C => .special .f3
  | 0x3D => .special .f4
  | 0x3E => .special .f5
  | 0x3F => .special .f6
  | 0x40 => .special .f7
  | 0x41 => .special .f8
  | 0x42 => .special .f9
  | 0x43 => .special .f10
  -- navigation, with delete among it
  | 0x4A => .special .home
  | 0x4C => .control 0x7F
  | 0x4D => .special .endKey
  | 0x4F => .special .right
  | 0x50 => .special .left
  | 0x51 => .special .down
  | 0x52 => .special .up
  -- the number block
  | 0x54 => .char '/'
  | 0x55 => .char '*'
  | 0x56 => .char '-'
  | 0x57 => .char '+'
  | 0x58 => .control Ascii.cr
  | 0x59 => .char '1'
  | 0x5A => .char '2'
  | 0x5B => .char '3'
  | 0x5C => .char '4'
  | 0x5D => .char '5'
  | 0x5E => .char '6'
  | 0x5F => .char '7'
  | 0x60 => .char '8'
  | 0x61 => .char '9'
  | 0x62 => .char '0'
  | 0x63 => .char '.'
  | 0x64 => .chars '\x5c' '|'
  | 0x67 => .char '='
  | _ => .unmapped

/-- The keys in which the British layout differs. -/
def britishKey? : UInt8 → Option Keycap
  | 0x1F => some (.chars '2' '\x22')
  | 0x20 => some (.unshiftedOnly '3')
  | 0x34 => some (.chars '\x27' '@')
  | 0x35 => some (.unshiftedOnly '\x60')
  | _ => none

/-- What is on a key. -/
def keycap (layout : Layout) (usage : UInt8) : Keycap :=
  if firstLetter ≤ usage ∧ usage ≤ lastLetter then letterKey usage
  else match layout with
    | us => commonKey usage
    | uk => (britishKey? usage).getD (commonKey usage)

/-- What a key means, if anything. -/
def legend? (layout : Layout) (usage : UInt8) (shifted : Bool) : Option Legend :=
  (layout.keycap usage).legend? shifted

/-- What a key means as one byte, zero for nothing. -/
def code (layout : Layout) (usage : UInt8) (shifted : Bool) : UInt8 :=
  (layout.legend? usage shifted).elim 0 Legend.code

end Layout

end SerialTerminal
