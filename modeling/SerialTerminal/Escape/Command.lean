/-
What the interpreter is asked for.

A control byte or a control sequence is first read as a request in the terms of
the screen, and only then carried out. This file is the reading: the meaning of
the control bytes, of the final bytes, and of the parameters. **Whatever has no
meaning here changes nothing**, so a host that speaks a larger dialect is not
misunderstood, only ignored.

Two rules are easily read the other way. In a cursor address the column comes
first. And a rendition sequence takes effect through its first clause alone:
parameters that the clause does not name are not looked at.
-/
import SerialTerminal.Color
import SerialTerminal.Escape.Parser

set_option autoImplicit false

namespace SerialTerminal

/-! ## Control bytes -/

/-- The control bytes that do something. -/
inductive Control where
  | bell
  | backspace
  | tab
  | lineFeed
  | formFeed
  | carriageReturn
  deriving DecidableEq

/-- The meaning of a byte outside a sequence that is not a character. -/
def Control.ofByte? : UInt8 → Option Control
  | Ascii.bel => some bell
  | Ascii.bs => some backspace
  | Ascii.ht => some tab
  | Ascii.lf => some lineFeed
  | Ascii.ff => some formFeed
  | Ascii.cr => some carriageReturn
  | _ => none

/-! ## Control sequences -/

/-- Which part of a line or of the page is meant, seen from the cursor. -/
inductive Extent where
  /-- From the cursor to the end. -/
  | toEnd
  /-- From the start to the cursor. -/
  | toStart
  /-- All of it. -/
  | whole
  deriving DecidableEq

/-- A change of the colors that are written from now on. -/
inductive Rendition where
  /-- Back to the configured text colors. -/
  | plain
  /-- Foreground and background change places. -/
  | reverse
  | foreground (c : Color)
  | background (c : Color)
  deriving DecidableEq

/-- What a control sequence asks for. -/
inductive Command where
  | cursorUp (n : Nat)
  | cursorDown (n : Nat)
  | cursorRight (n : Nat)
  | cursorLeft (n : Nat)
  /-- Column and row, both from zero. -/
  | cursorTo (x y : Nat)
  | eraseLine (extent : Extent)
  | erasePage (extent : Extent)
  | scrollUp (n : Nat)
  | showCursor (visible : Bool)
  | render (r : Rendition)
  | saveCursor
  | restoreCursor
  deriving DecidableEq

/-- The first clause of a rendition sequence. A raw color is the low byte of its
parameter. -/
def Csi.rendition? (c : Csi) : Option Rendition :=
  let p := c.param 0
  if p = 0 then some .plain
  else if p = 7 then some .reverse
  else if 30 ≤ p ∧ p ≤ 37 then (Color.ansi? (p - 30)).map .foreground
  else if p = 38 then
    if c.param 1 = 5 then some (.foreground ⟨UInt8.ofNat (c.param 2)⟩) else none
  else if 40 ≤ p ∧ p ≤ 47 then (Color.ansi? (p - 40)).map .background
  else if p = 48 then
    if c.param 1 = 5 then some (.background ⟨UInt8.ofNat (c.param 2)⟩) else none
  else none

/-- The part of a line that an erase in line means. -/
def Csi.lineExtent? (c : Csi) : Option Extent :=
  match c.param 0 with
  | 0 => some .toEnd
  | 1 => some .toStart
  | 2 => some .whole
  | _ => none

/-- The part of the page that an erase in page means. No lines are kept beyond
the top of the page, so erasing those too is erasing the page. -/
def Csi.pageExtent? (c : Csi) : Option Extent :=
  match c.param 0 with
  | 0 => some .toEnd
  | 1 => some .toStart
  | 2 => some .whole
  | 3 => some .whole
  | _ => none

/-- The private mode that shows and hides the cursor. -/
def Csi.cursorMode : Nat := 25

/-- The cursor is to be shown or hidden, if this is what a mode sequence is
about. -/
def Csi.cursorVisibility? (c : Csi) (visible : Bool) : Option Command :=
  if c.isPrivate ∧ c.param 0 = cursorMode then some (.showCursor visible) else none

/-- What a control sequence asks for, if anything. -/
def Csi.command? (c : Csi) : Option Command :=
  match c.final with
  | 0x41 => some (.cursorUp (c.paramOr 0 1))                         -- A
  | 0x42 => some (.cursorDown (c.paramOr 0 1))                       -- B
  | 0x43 => some (.cursorRight (c.paramOr 0 1))                      -- C
  | 0x44 => some (.cursorLeft (c.paramOr 0 1))                       -- D
  | 0x48 => some (.cursorTo (c.param 0 - 1) (c.param 1 - 1))         -- H
  | 0x4A => c.pageExtent?.map .erasePage                             -- J
  | 0x4B => c.lineExtent?.map .eraseLine                             -- K
  | 0x53 => some (.scrollUp (c.paramOr 0 1))                         -- S
  | 0x68 => c.cursorVisibility? true                                 -- h
  | 0x6C => c.cursorVisibility? false                                -- l
  | 0x6D => c.rendition?.map .render                                 -- m
  | 0x73 => some .saveCursor                                         -- s
  | 0x75 => some .restoreCursor                                      -- u
  | _ => none

end SerialTerminal
