/-
Keystrokes, decoded.

A token says what was meant by a key, not which key it was. Tokens wait in the
key queue as they are; only on their way to the host or back into the
interpreter does a special key become the escape sequence it stands for. The
commands given with alt stand for no bytes at all and are never sent.
-/
import SerialTerminal.Text

set_option autoImplicit false

namespace SerialTerminal

/-! ## Special keys -/

/-- Keys for navigation and functions. -/
inductive SpecialKey where
  | up
  | down
  | left
  | right
  | home
  | endKey
  | f1
  | f2
  | f3
  | f4
  | f5
  | f6
  | f7
  | f8
  | f9
  | f10
  deriving DecidableEq

namespace SpecialKey

/-- All special keys, in the order of their codes. -/
def all : List SpecialKey :=
  [up, down, left, right, home, endKey, f1, f2, f3, f4, f5, f6, f7, f8, f9, f10]

/-- The code of the first special key; all codes lie above the characters. -/
def baseCode : UInt8 := 0x80

/-- The code that stands for the key in a layout. -/
def code (k : SpecialKey) : UInt8 :=
  baseCode + UInt8.ofNat (all.idxOf k)

/-- The key with the given code. -/
def ofCode? (code : UInt8) : Option SpecialKey :=
  if code < baseCode then none else all[(code - baseCode).toNat]?

/-- What the key sends after the escape and the bracket that all of them
send. -/
def tail : SpecialKey → List UInt8
  | up => [0x41]          -- A
  | down => [0x42]        -- B
  | right => [0x43]       -- C
  | left => [0x44]        -- D
  | home => [0x48]        -- H
  | endKey => [0x4B]        -- K
  | f1 => [0x4F, 0x50]    -- O P
  | f2 => [0x4F, 0x51]
  | f3 => [0x4F, 0x52]
  | f4 => [0x4F, 0x53]
  | f5 => [0x4F, 0x54]
  | f6 => [0x4F, 0x55]
  | f7 => [0x4F, 0x56]
  | f8 => [0x4F, 0x57]
  | f9 => [0x4F, 0x58]
  | f10 => [0x4F, 0x59]   -- O Y

/-- The bytes sent for the key. -/
def bytes (k : SpecialKey) : List UInt8 :=
  Ascii.esc :: 0x5B :: k.tail

/-- A key is found again under its code. -/
@[simp] theorem ofCode?_code (k : SpecialKey) : ofCode? k.code = some k := by
  cases k <;> rfl

end SpecialKey

/-! ## Commands given with alt -/

/-- Commands to the terminal itself. -/
inductive AltKey where
  /-- Opens the configuration surface. -/
  | config
  /-- Changes between the host and the local interpreter. -/
  | toggleLocal
  /-- Reserved. -/
  | record
  /-- Reserved. -/
  | transmit
  deriving DecidableEq

/-- The command on a letter, small or capital: C, L, R and T. -/
def AltKey.ofLetter? : UInt8 → Option AltKey
  | 0x43 | 0x63 => some config
  | 0x4C | 0x6C => some toggleLocal
  | 0x52 | 0x72 => some record
  | 0x54 | 0x74 => some transmit
  | _ => none

/-! ## Tokens -/

/-- One decoded keystroke. -/
inductive KeyToken where
  /-- A character or a control byte. -/
  | byte (b : UInt8)
  | special (k : SpecialKey)
  | alt (a : AltKey)
  deriving DecidableEq

namespace KeyToken

/-- The bytes that a token stands for. -/
def bytes : KeyToken → List UInt8
  | byte b => [b]
  | special k => k.bytes
  | alt _ => []

/-- The token is a command to the terminal itself. -/
def isAlt : KeyToken → Bool
  | alt _ => true
  | _ => false

/-- Only the commands stand for no bytes. -/
theorem bytes_eq_nil_iff (t : KeyToken) : t.bytes = [] ↔ t.isAlt = true := by
  cases t <;> simp [bytes, isAlt, SpecialKey.bytes]

theorem length_bytes_le (t : KeyToken) : t.bytes.length ≤ 4 := by
  cases t with
  | byte b => exact Nat.le_of_ble_eq_true rfl
  | special k => cases k <;> decide
  | alt a => exact Nat.zero_le 4

end KeyToken

end SerialTerminal
