/-
The bell.

The interpreter rings it and the poll loop gives it the time; what it does with
either is its own affair. `Silent` does nothing, and a number of rings counts
them, which is how a run of the terminal is asked how often it rang.
-/
import SerialTerminal.Clock

set_option autoImplicit false

namespace SerialTerminal

/-- Something that can be rung. -/
class Bell (β : Type) where
  /-- Asks for one beep. -/
  ring : β → β
  /-- Lets time pass; called once per turn of the poll loop. -/
  tick : β → Instant → β

namespace Bell

/-- A bell that does nothing. -/
structure Silent where
  deriving DecidableEq, Inhabited

instance : Bell Silent where
  ring b := b
  tick b _ := b

/-- A bell that counts its rings. -/
structure Tally where
  rings : Nat := 0
  deriving DecidableEq, Inhabited

instance : Bell Tally where
  ring b := ⟨b.rings + 1⟩
  tick b _ := b

end Bell

end SerialTerminal
