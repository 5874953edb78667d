/-
The place where settings are edited.

A surface draws itself on the terminal when editing begins, and is then given
the keys one at a time together with the draft, which it may change, and the
terminal, which it may draw on. With one of these keys it says that it is done.
What it looks like and which keys it understands is its own affair.

`ConfigPage` is the surface that is built in. It shows the settings and changes
none of them; escape and return leave it.
-/
import SerialTerminal.Keyboard.Token
import SerialTerminal.Terminal.Page

set_option autoImplicit false

namespace SerialTerminal

/-! ## Surfaces -/

/-- What becomes of a key that is given to a surface. -/
structure ConfigReply (σ : Type) (cols rows : Nat) where
  surface : σ
  /-- The draft as edited so far. -/
  draft : Settings
  terminal : Terminal cols rows
  /-- Editing is over and the draft is to take effect. -/
  done : Bool

/-- A configuration surface on a grid of the given size, as a state. -/
class ConfigSurface (σ : Type) (cols rows : Nat) where
  /-- Draws the surface for a fresh edit of the given settings. -/
  enter : σ → Settings → Terminal cols rows → σ × Terminal cols rows
  /-- Takes one key. -/
  key : σ → KeyToken → Settings → Terminal cols rows → ConfigReply σ cols rows

/-! ## The built-in page -/

/-- The built-in page has no state. -/
structure ConfigPage where
  deriving DecidableEq, Inhabited

namespace ConfigPage

/-- The colors of the page. -/
def attrs : Attrs := ⟨.white, .darkGreen⟩

/-- The heading of the page. -/
def title : String := "TERMINAL CONFIGURATION"

/-- How a setting that is on or off is shown. -/
def onOff (b : Bool) : String :=
  if b then "on" else "off"

/-- The lines below the heading: each setting with its value. -/
def entries (s : Settings) : List String :=
  [ "Serial      " ++ s.serial.text,
    "Autowrap    " ++ onOff s.policy.autowrap,
    "BS erases   " ++ onOff s.policy.backspaceErases,
    "CR -> CRLF  " ++ onOff s.policy.crImpliesLf,
    "LF -> CRLF  " ++ onOff s.policy.lfImpliesCr,
    "Status line " ++ onOff s.statusLine ]

/-- The row and the column of the first entry. -/
def firstEntry : Nat × Nat := (2, 2)

variable {cols rows : Nat}

/-- Writes lines of text one below the other. -/
def writeLines (t : Terminal cols rows) (row col : Nat) : List String → Terminal cols rows
  | [] => t
  | line :: rest => writeLines (t.writeText row col (Text.encode line)) (row + 1) col rest

/-- Clears the terminal in the colors of the page and writes heading and
entries. -/
def draw (s : Settings) (t : Terminal cols rows) : Terminal cols rows :=
  writeLines ((t.clearWith attrs).writeText 0 0 (Text.encode title))
    firstEntry.1 firstEntry.2 (entries s)

/-- The keys that leave the page. -/
def leaves : KeyToken → Bool
  | .byte b => b = Ascii.esc ∨ b = Ascii.cr
  | _ => false

instance : ConfigSurface ConfigPage cols rows where
  enter page settings t := (page, draw settings t)
  key page token draft t := ⟨page, draft, t, leaves token⟩

end ConfigPage

end SerialTerminal
