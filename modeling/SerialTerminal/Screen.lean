/-
The grid of cells, with an optional status row at the bottom.

`cols` and `rows` are fixed by the video mode and the font, so they are part of
the type, and a cell is named by its column `x` and its row `y`, both counted
from zero. **Every operation takes any coordinates at all**: a cell outside the
grid reads as `none`, and a write to it does nothing. Clipping is therefore
never a case of its own.

When the status row is reserved, the last row is no longer *addressable*:
`lines` counts the rows above it, and it is `lines`, not `rows`, which clearing
and scrolling stop at. A grid of one row has none to spare, which is kept as a
proof in the structure.

`Screen.cell?` is the view. Each operation is pinned down by one lemma that says
what it does to that view, and two screens with equal views and equal status
flags are equal (`Screen.ext_cell?`).
-/
import SerialTerminal.Glyph

set_option autoImplicit false

namespace SerialTerminal

/-- A grid of `cols` by `rows` cells. -/
@[ext] structure Screen (cols rows : Nat) where
  cells : Vector (Vector Glyph cols) rows
  /-- The last row is reserved for the status line. -/
  hasStatus : Bool
  /-- Only a grid with a row to spare reserves one. -/
  one_lt_rows : hasStatus = true → 1 < rows

namespace Screen

variable {cols rows : Nat}

/-- A grid of blanks with all of its rows addressable. -/
def blank (cols rows : Nat) (attrs : Attrs) : Screen cols rows where
  cells := .replicate rows (.replicate cols (.blank attrs))
  hasStatus := false
  one_lt_rows := nofun

/-- The number of addressable rows. -/
def lines (s : Screen cols rows) : Nat :=
  if s.hasStatus then rows - 1 else rows

/-! ## Reading -/

/-- One row of cells, the status row included. -/
def row? (s : Screen cols rows) (y : Nat) : Option (Vector Glyph cols) :=
  s.cells[y]?

/-- **The view**: the glyph in column `x` of row `y`, if the grid has that
cell. -/
def cell? (s : Screen cols rows) (x y : Nat) : Option Glyph :=
  (s.row? y).bind fun row => row[x]?

/-! ## Writing -/

/-- Changes one cell by a rule, if the grid has it. -/
def modifyCell (s : Screen cols rows) (x y : Nat) (f : Glyph → Glyph) : Screen cols rows :=
  if h : x < cols ∧ y < rows then
    { s with cells := s.cells.set y (s.cells[y].set x (f s.cells[y][x])) }
  else s

/-- Changes every cell by a rule that is told where the cell stands. -/
def mapCells (s : Screen cols rows) (f : Nat → Nat → Glyph → Glyph) : Screen cols rows :=
  { s with cells := s.cells.mapIdx fun y row => row.mapIdx fun x g => f x y g }

/-- Replaces a whole cell. -/
def put (s : Screen cols rows) (x y : Nat) (g : Glyph) : Screen cols rows :=
  s.modifyCell x y fun _ => g

/-- Replaces the code of a cell and keeps its colors. -/
def setCode (s : Screen cols rows) (x y : Nat) (code : UInt8) : Screen cols rows :=
  s.modifyCell x y fun g => g.withCode code

/-- Reserves the last row for the status line, or releases it.

A released row joins the addressable rows and is blanked in the given colors; a
reserved one keeps what it shows. A grid of one row refuses. -/
def setStatus (s : Screen cols rows) (enabled : Bool) (attrs : Attrs) : Screen cols rows :=
  let enabled' := enabled && decide (1 < rows)
  let released := s.hasStatus && !enabled'
  { cells := (s.mapCells fun _ y g => if released && y + 1 == rows then .blank attrs else g).cells
    hasStatus := enabled'
    one_lt_rows := by simp +contextual [enabled'] }

/-! ## What each operation does to the view -/

theorem cell?_eq_some {s : Screen cols rows} {x y : Nat} (hx : x < cols) (hy : y < rows) :
    s.cell? x y = some s.cells[y][x] := by
  simp [cell?, row?, hx, hy]

/-- A cell is there exactly when its coordinates are on the grid. -/
theorem isSome_cell? (s : Screen cols rows) (x y : Nat) :
    (s.cell? x y).isSome ↔ x < cols ∧ y < rows := by
  by_cases hy : y < rows <;> by_cases hx : x < cols <;> simp [cell?, row?, hx, hy]

theorem cell?_eq_none_iff (s : Screen cols rows) (x y : Nat) :
    s.cell? x y = none ↔ ¬ (x < cols ∧ y < rows) := by
  rw [← isSome_cell? s x y]
  cases s.cell? x y <;> simp

/-- **Two screens that show the same and reserve the same are the same.** -/
theorem ext_cell? {s t : Screen cols rows} (hcell : ∀ x y, s.cell? x y = t.cell? x y)
    (hstatus : s.hasStatus = t.hasStatus) : s = t := by
  refine Screen.ext ?_ hstatus
  refine Vector.ext fun y hy => Vector.ext fun x hx => ?_
  simpa [cell?_eq_some hx hy] using hcell x y

@[simp] theorem cell?_blank (attrs : Attrs) (x y : Nat) :
    (blank cols rows attrs).cell? x y =
      if x < cols ∧ y < rows then some (.blank attrs) else none := by
  by_cases hy : y < rows <;> by_cases hx : x < cols <;> simp [cell?, row?, blank, hx, hy]

theorem cell?_modifyCell (s : Screen cols rows) (x y : Nat) (f : Glyph → Glyph) (cx cy : Nat) :
    (s.modifyCell x y f).cell? cx cy =
      if cx = x ∧ cy = y then (s.cell? cx cy).map f else s.cell? cx cy := by
  unfold modifyCell
  split
  next h =>
    obtain ⟨hx, hy⟩ := h
    by_cases hcy : cy < rows
    · by_cases hcx : cx < cols
      · by_cases ey : cy = y
        · subst ey
          by_cases ex : cx = x
          · subst ex
            simp [cell?, row?, hcx, hcy]
          · have : ¬ x = cx := fun e => ex e.symm
            simp [cell?, row?, hcx, hcy, ex, this]
        · have : ¬ y = cy := fun e => ey e.symm
          simp [cell?, row?, hcx, hcy, ey, this]
      · have hne : ¬ (cx = x ∧ cy = y) := fun e => hcx (e.1 ▸ hx)
        simp [cell?, row?, hcx, hcy, hne]
    · have hne : ¬ (cx = x ∧ cy = y) := fun e => hcy (e.2 ▸ hy)
      simp [cell?, row?, hcy, hne]
  next h =>
    split
    next e =>
      obtain ⟨rfl, rfl⟩ := e
      rw [(cell?_eq_none_iff s cx cy).2 h]
      rfl
    next => rfl

@[simp] theorem cell?_mapCells (s : Screen cols rows) (f : Nat → Nat → Glyph → Glyph)
    (x y : Nat) : (s.mapCells f).cell? x y = (s.cell? x y).map (f x y) := by
  by_cases hy : y < rows <;> by_cases hx : x < cols <;>
    simp [cell?, row?, mapCells, hx, hy]

theorem cell?_put (s : Screen cols rows) (x y : Nat) (g : Glyph) (cx cy : Nat) :
    (s.put x y g).cell? cx cy =
      if cx = x ∧ cy = y then (s.cell? cx cy).map fun _ => g else s.cell? cx cy :=
  cell?_modifyCell ..

theorem cell?_setCode (s : Screen cols rows) (x y : Nat) (code : UInt8) (cx cy : Nat) :
    (s.setCode x y code).cell? cx cy =
      if cx = x ∧ cy = y then (s.cell? cx cy).map (·.withCode code) else s.cell? cx cy :=
  cell?_modifyCell ..

/-- Only the last row can change, and only when it is released. -/
theorem cell?_setStatus (s : Screen cols rows) (enabled : Bool) (attrs : Attrs) (x y : Nat) :
    (s.setStatus enabled attrs).cell? x y =
      if s.hasStatus ∧ enabled = false ∧ y + 1 = rows then
        (s.cell? x y).map fun _ => .blank attrs
      else s.cell? x y := by
  have view : (s.setStatus enabled attrs).cell? x y =
      (s.cell? x y).map fun g =>
        if (s.hasStatus && !(enabled && decide (1 < rows))) && y + 1 == rows then .blank attrs
        else g :=
    cell?_mapCells s _ x y
  rw [view]
  cases hs : s.hasStatus with
  | false => simp
  | true =>
    have := s.one_lt_rows hs
    cases enabled <;> by_cases hy : y + 1 = rows <;> simp [hy, this]

/-! ## What stays the same -/

@[simp] theorem hasStatus_modifyCell (s : Screen cols rows) (x y : Nat) (f : Glyph → Glyph) :
    (s.modifyCell x y f).hasStatus = s.hasStatus := by
  unfold modifyCell
  split <;> rfl

@[simp] theorem hasStatus_put (s : Screen cols rows) (x y : Nat) (g : Glyph) :
    (s.put x y g).hasStatus = s.hasStatus :=
  hasStatus_modifyCell ..

@[simp] theorem hasStatus_setCode (s : Screen cols rows) (x y : Nat) (code : UInt8) :
    (s.setCode x y code).hasStatus = s.hasStatus :=
  hasStatus_modifyCell ..

@[simp] theorem hasStatus_mapCells (s : Screen cols rows) (f : Nat → Nat → Glyph → Glyph) :
    (s.mapCells f).hasStatus = s.hasStatus := rfl

/-- The status row is reserved as asked, except on a grid of one row. -/
@[simp] theorem hasStatus_setStatus (s : Screen cols rows) (enabled : Bool) (attrs : Attrs) :
    (s.setStatus enabled attrs).hasStatus = (enabled && decide (1 < rows)) := rfl

theorem lines_le (s : Screen cols rows) : s.lines ≤ rows := by
  unfold lines
  split <;> omega

/-- There is an addressable row whenever there is a row at all. -/
theorem lines_pos (s : Screen cols rows) (h : 0 < rows) : 0 < s.lines := by
  unfold lines
  split
  next hs =>
    have := s.one_lt_rows hs
    omega
  next => exact h

/-- How many rows are addressable depends on the status flag alone. -/
theorem lines_congr {s t : Screen cols rows} (h : s.hasStatus = t.hasStatus) :
    s.lines = t.lines := by
  simp [lines, h]

end Screen

end SerialTerminal
