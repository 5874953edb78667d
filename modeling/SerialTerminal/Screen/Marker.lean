/-
The cursor and the marker that shows it.

The video output reads the cells as they are, so the only way to show where the
cursor stands is to change the cell there. **The marker is that change, together
with what is needed to undo it**: the position it covers and the code it
replaced. Colors are left alone.

Whoever changes the grid lifts the marker first and places it again afterwards,
so that every edit sees the true glyphs. A marker that stays down during an edit
would put its remembered code back over whatever was written there.
-/
import SerialTerminal.Screen

set_option autoImplicit false

namespace SerialTerminal

/-- A position in cells: column and row, both from zero. -/
structure Cursor where
  x : Nat
  y : Nat
  deriving DecidableEq, Inhabited

/-- The first column of the first row. -/
def Cursor.home : Cursor := ⟨0, 0⟩

/-- The marker: whether it is wanted, and what it covers at the moment. -/
structure Marker where
  /-- Placing the marker shows it. -/
  visible : Bool := false
  /-- The covered position and the code that belongs there. -/
  under : Option (Cursor × UInt8) := none
  deriving DecidableEq, Inhabited

namespace Marker

variable {cols rows : Nat}

/-- The code drawn at the cursor: an underscore. -/
def code : UInt8 := 0x5F

/-- The true code at a position, if the marker covers it. -/
def covered? (m : Marker) (pos : Cursor) : Option UInt8 :=
  match m.under with
  | some (at', code) => if at' = pos then some code else none
  | none => none

/-- Puts back what the marker covers. -/
def lift (m : Marker) (s : Screen cols rows) : Marker × Screen cols rows :=
  match m.under with
  | some (pos, code) => ({ m with under := none }, s.setCode pos.x pos.y code)
  | none => (m, s)

/-- Lifts the marker and, if it is wanted, lays it over the given position. A
position outside the grid shows none. -/
def place (m : Marker) (s : Screen cols rows) (pos : Cursor) : Marker × Screen cols rows :=
  let (m, s) := m.lift s
  if m.visible then
    match s.cell? pos.x pos.y with
    | some g => ({ m with under := some (pos, g.code) }, s.setCode pos.x pos.y Marker.code)
    | none => (m, s)
  else (m, s)

/-! ## What lifting and placing keep -/

@[simp] theorem visible_lift (m : Marker) (s : Screen cols rows) :
    (m.lift s).1.visible = m.visible := by
  unfold lift
  split <;> rfl

/-- A lifted marker covers nothing. -/
@[simp] theorem under_lift (m : Marker) (s : Screen cols rows) : (m.lift s).1.under = none := by
  unfold lift
  split
  · rfl
  · assumption

@[simp] theorem hasStatus_lift (m : Marker) (s : Screen cols rows) :
    (m.lift s).2.hasStatus = s.hasStatus := by
  unfold lift
  split <;> simp

@[simp] theorem visible_place (m : Marker) (s : Screen cols rows) (pos : Cursor) :
    (m.place s pos).1.visible = m.visible := by
  unfold place
  dsimp only
  split
  · split <;> simp
  · simp

@[simp] theorem hasStatus_place (m : Marker) (s : Screen cols rows) (pos : Cursor) :
    (m.place s pos).2.hasStatus = s.hasStatus := by
  unfold place
  dsimp only
  split
  · split <;> simp
  · simp

end Marker

end SerialTerminal
