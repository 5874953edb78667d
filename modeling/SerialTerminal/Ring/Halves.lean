/-
The two halves of a ring in use from two contexts.

A ring is split by handing its write side to one context and its read side to
another, say the receive interrupt and the poll loop. Both go on working on the
one ring: the writer moves only the write index and only reads the other, and
the reader the other way round. So a half is no second copy of the ring but a
restriction on what may be done to it, and each function here takes the shared
ring as it stands at that moment.

Each half asks its own question of the two indices. The writer wants room, the
reader wants an item, and either may count.
-/
import SerialTerminal.Ring

set_option autoImplicit false

namespace SerialTerminal

universe u

namespace Ring

variable {α : Type u} {slots : Nat}

/-! ## The writing half -/

namespace Producer

/-- Appends an item, or reports `false` and drops it when the ring is full. -/
def push (shared : Ring α slots) (a : α) : Ring α slots × Bool :=
  shared.push a

/-- The next write will succeed. -/
def hasRoom (shared : Ring α slots) : Bool :=
  next shared.tail != shared.head

/-- The number of items still waiting for the reader. -/
def size (shared : Ring α slots) : Nat :=
  shared.size

/-- The reader has taken everything. -/
def isEmpty (shared : Ring α slots) : Bool :=
  size shared == 0

end Producer

/-! ## The reading half -/

namespace Consumer

/-- Removes the oldest item and returns it. -/
def pop (shared : Ring α slots) : Ring α slots × Option α :=
  shared.pop

/-- The oldest item, left in place. -/
def peek? (shared : Ring α slots) : Option α :=
  shared.peek?

/-- The number of items that may be read now. -/
def size (shared : Ring α slots) : Nat :=
  shared.size

/-- Nothing may be read now. -/
def isEmpty (shared : Ring α slots) : Bool :=
  shared.head == shared.tail

end Consumer

end Ring

end SerialTerminal
