/-
Control sequences: what stands between `ESC [` and the byte that ends it.

The body of a sequence holds decimal parameters, separated by semicolons, and
possibly a question mark which makes it private. Five parameters are kept. **A
parameter never overflows**: it stops at `65535`, however many digits follow, so
that a huge number from the host means "as far as possible" and not some small
remainder of it.

The body is collected byte by byte in `Csi.Body`; with the final byte added it
is a `Csi`.
-/
set_option autoImplicit false

namespace SerialTerminal

namespace Csi

/-- The number of parameters that a sequence keeps. -/
def maxParams : Nat := 5

/-- The greatest value of a parameter. -/
def paramLimit : Nat := 65535

/-- What has been collected of a sequence. -/
structure Body where
  /-- The parameters, zero where none was given. -/
  params : Vector Nat maxParams
  /-- The number of separators seen, up to `maxParams`; the parameter being
  collected has this index. -/
  count : Nat
  /-- A question mark was seen. -/
  isPrivate : Bool
  deriving DecidableEq

namespace Body

/-- The body of a sequence that has just begun. -/
def empty : Body where
  params := .replicate maxParams 0
  count := 0
  isPrivate := false

instance : Inhabited Body := ⟨empty⟩

/-- Appends a decimal digit to the current parameter. Past the last parameter
kept, digits are dropped. -/
def digit (b : Body) (d : Nat) : Body :=
  if h : b.count < maxParams then
    { b with params := b.params.set b.count (min paramLimit (b.params[b.count] * 10 + d)) }
  else b

/-- Goes on to the next parameter. -/
def separator (b : Body) : Body :=
  { b with count := min maxParams (b.count + 1) }

/-- Marks the sequence as private. -/
def questionMark (b : Body) : Body :=
  { b with isPrivate := true }

end Body

end Csi

/-- A complete control sequence. -/
structure Csi extends Csi.Body where
  /-- The byte that ends the sequence and says what it asks for. -/
  final : UInt8
  deriving DecidableEq, Inhabited

namespace Csi

/-- The parameter with the given index, zero when it was not given. -/
def param (c : Csi) (index : Nat) : Nat :=
  (c.params[index]?).getD 0

/-- The parameter with the given index, zero standing for a default. -/
def paramOr (c : Csi) (index default : Nat) : Nat :=
  if c.param index = 0 then default else c.param index

end Csi

end SerialTerminal
