/-
What can be done to a terminal, as data.

The functions of `Terminal` that the rest of the program calls are the
constructors of `Operation`, with all of their arguments. **A run is a list of
operations on one terminal and one bell**, and the terminals which a run leads to
from a new one are the reachable ones. What holds of every reachable terminal is
then shown once: for a new terminal, and for one step.
-/
import SerialTerminal.Terminal.Interpreter
import SerialTerminal.Terminal.Page

set_option autoImplicit false

namespace SerialTerminal

/-- One call from outside, with its arguments. Coordinates and texts may be any
at all; what falls off the grid is clipped by the screen. -/
inductive Operation where
  | handle (b : UInt8)
  | print (bytes : List UInt8)
  | banner
  | reset
  | apply (settings : Settings)
  | setPolicy (policy : LinePolicy)
  | setStatusLine (enabled : Bool)
  | writeStatus (left right : List UInt8)
  | clearWith (attrs : Attrs)
  | writeText (row col : Nat) (text : List UInt8)
  | writeColored (row col : Nat) (attrs : Attrs) (text : List UInt8)
  | drawBox (row col width height : Nat) (attrs : Attrs)

namespace Terminal

variable {β : Type} [Bell β] {cols rows : Nat}

/-! ## Runs -/

/-- Carries out one operation. Only bytes from the host can ring the bell. -/
def operate (t : Terminal cols rows) (op : Operation) (bell : β) : Terminal cols rows × β :=
  match op with
  | .handle b => t.handle b bell
  | .print bytes => t.print bytes bell
  | .banner => (t.banner, bell)
  | .reset => (t.reset, bell)
  | .apply settings => (t.apply settings, bell)
  | .setPolicy policy => (t.setPolicy policy, bell)
  | .setStatusLine enabled => (t.setStatusLine enabled, bell)
  | .writeStatus left right => (t.writeStatus left right, bell)
  | .clearWith attrs => (t.clearWith attrs, bell)
  | .writeText row col text => (t.writeText row col text, bell)
  | .writeColored row col attrs text => (t.writeColored row col attrs text, bell)
  | .drawBox row col width height attrs => (t.drawBox row col width height attrs, bell)

/-- Carries out operations one after the other. -/
def operateAll (t : Terminal cols rows) : List Operation → β → Terminal cols rows × β
  | [], bell => (t, bell)
  | op :: ops, bell => (t.operate op bell).1.operateAll ops (t.operate op bell).2

/-! ## Reachable terminals -/

/-- What a run of operations can make of a new terminal, whichever bells are
connected on the way. -/
inductive Reachable : Terminal cols rows → Prop where
  | create (settings : Settings) : Reachable (create cols rows settings)
  | operate {β : Type} [Bell β] {t : Terminal cols rows} (op : Operation) (bell : β) :
      Reachable t → Reachable (t.operate op bell).1

/-- A run from a reachable terminal stays among the reachable ones. -/
theorem Reachable.operateAll {t : Terminal cols rows} (h : t.Reachable) (ops : List Operation)
    (bell : β) : (t.operateAll ops bell).1.Reachable := by
  induction ops generalizing t bell with
  | nil => exact h
  | cons op ops ih => exact ih (h.operate op bell) _

end Terminal

end SerialTerminal
