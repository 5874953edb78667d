/-
From a key to a token.

The legend of the key decides, and four things bear on it in this order. Caps
lock turns shift around on the letters and on nothing else. Alt makes a command
of a key whose plain legend is one of the command letters, and is otherwise not
noticed. A special key is a special key whatever is held with it. And control
folds the characters from `0x40` to `0x7F` onto the control bytes, and makes
nothing of all others.
-/
import SerialTerminal.Keyboard.Layout
import SerialTerminal.Keyboard.Report

set_option autoImplicit false

namespace SerialTerminal

/-- The legend is a small letter. -/
def Legend.isSmallLetter : Legend → Bool
  | char b => 0x61 ≤ b && b ≤ 0x7A
  | special _ => false

/-- The command that alt makes of a legend. -/
def Legend.command? : Legend → Option AltKey
  | char b => AltKey.ofLetter? b
  | special _ => none

/-- The control byte of a character, if there is one. -/
def controlByte? (b : UInt8) : Option UInt8 :=
  if 0x60 ≤ b ∧ b ≤ 0x7F then some (b - 0x60)
  else if 0x40 ≤ b ∧ b ≤ 0x5F then some (b - 0x40)
  else none

/-- The token of a legend, with or without control. -/
def Legend.token? (control : Bool) : Legend → Option KeyToken
  | special k => some (.special k)
  | char b => if control then (controlByte? b).map .byte else some (.byte b)

/-- What a key means that goes down under the given modifiers. The caps lock key
itself means nothing. -/
def KeyToken.decode? (layout : Layout) (usage : UInt8) (modifiers : Modifiers)
    (capsLock : Bool) : Option KeyToken :=
  if usage = KeyReport.capsLockKey then none
  else
    let plain := layout.legend? usage false
    let turned := capsLock && plain.any Legend.isSmallLetter
    let legend := layout.legend? usage (modifiers.shift != turned)
    let command := if modifiers.alt then plain.bind Legend.command? else none
    match command with
    | some a => some (.alt a)
    | none => legend.bind (Legend.token? modifiers.control)

end SerialTerminal
