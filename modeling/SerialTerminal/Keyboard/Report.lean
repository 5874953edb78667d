/-
What a keyboard reports.

A boot-protocol keyboard sends its whole state, eight bytes long: a byte of
modifier keys, a reserved byte, and six places for the usage codes of the other
keys that are down, zero in the places that are free. Which key went down or up
is not said; it is the difference between two reports.

When too many keys are down to tell them apart, the places hold the rollover
code, and such a report says nothing about any key.
-/
set_option autoImplicit false

namespace SerialTerminal

/-! ## Modifier keys -/

/-- The modifier keys held, one bit each: control, shift, alt and command on the
left, then the same on the right. -/
structure Modifiers where
  bits : UInt8 := 0
  deriving DecidableEq, Inhabited

namespace Modifiers

/-- The bit of the left control key, and of the right one. -/
def controlKeys : UInt8 := 0x01 ||| 0x10

/-- The bit of the left shift key, and of the right one. -/
def shiftKeys : UInt8 := 0x02 ||| 0x20

/-- The bit of the left alt key, and of the right one. -/
def altKeys : UInt8 := 0x04 ||| 0x40

/-- Either control key is held. -/
def control (m : Modifiers) : Bool := m.bits &&& controlKeys != 0

/-- Either shift key is held. -/
def shift (m : Modifiers) : Bool := m.bits &&& shiftKeys != 0

/-- Either alt key is held. -/
def alt (m : Modifiers) : Bool := m.bits &&& altKeys != 0

end Modifiers

/-! ## Reports -/

/-- The number of keys that a report has room for. -/
def KeyReport.maxKeys : Nat := 6

/-- The state of a keyboard. -/
structure KeyReport where
  modifiers : Modifiers
  /-- The usage codes of the keys that are down, zero for a free place. -/
  keys : Vector UInt8 KeyReport.maxKeys
  deriving DecidableEq

namespace KeyReport

/-- The code that stands in every place when too many keys are down. -/
def rollover : UInt8 := 0x01

/-- The usage code of the caps lock key. -/
def capsLockKey : UInt8 := 0x39

/-- The number of bytes in a report as it is sent. -/
def wireLength : Nat := 8

/-- The report of the given keys. Keys beyond the sixth have no place in it. -/
def ofKeys (modifiers : Modifiers) (keys : List UInt8) : KeyReport :=
  ⟨modifiers, .ofFn fun i => (keys[i.val]?).getD 0⟩

/-- No key is down. -/
def released : KeyReport := ofKeys {} []

instance : Inhabited KeyReport := ⟨released⟩

/-- Reads a report as it is sent. Bytes that are too few are no report; bytes
beyond the eighth are not looked at. -/
def ofBytes? (bytes : List UInt8) : Option KeyReport :=
  if bytes.length < wireLength then none
  else some (ofKeys ⟨bytes.headD 0⟩ (bytes.drop 2))

/-- The key is down. No key has the code zero. -/
def contains (r : KeyReport) (key : UInt8) : Bool :=
  key != 0 && r.keys.contains key

/-- Too many keys are down to tell them apart. -/
def isRollover (r : KeyReport) : Bool :=
  r.keys.contains rollover

/-- The keys that are down, in the order of their places. -/
def pressed (r : KeyReport) : List UInt8 :=
  r.keys.toList.filter (· != 0)

/-- The keys that are down are those that the report contains. -/
theorem mem_pressed (r : KeyReport) (key : UInt8) : key ∈ r.pressed ↔ r.contains key = true := by
  simp [pressed, contains, and_comm]

theorem length_pressed_le (r : KeyReport) : r.pressed.length ≤ maxKeys := by
  calc r.pressed.length ≤ r.keys.toList.length := List.length_filter_le ..
    _ = maxKeys := Vector.length_toList ..

end KeyReport

end SerialTerminal
