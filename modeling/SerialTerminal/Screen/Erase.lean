/-
Blanking regions of the grid and scrolling.

An erase blanks a **region**, a set of cells given by a test on coordinates, and
leaves every other cell alone. The seven regions below are the whole vocabulary:
parts of one line, the addressable rows before or after a cell in reading order,
and all addressable rows.

Two bounds are at work and they differ. The regions of one line are bounded by
the grid alone, so they reach the status row when they are asked for it; the
regions of several lines stop at `lines`, with one exception which is stated at
`Region.above`.

Scrolling is not an erase but a shift: row `y` shows what row `y + n` showed.
-/
import SerialTerminal.Screen

set_option autoImplicit false

namespace SerialTerminal

/-- A set of cells, as a test on the column `x` and the row `y`. -/
abbrev Region := Nat → Nat → Bool

namespace Region

/-- Row `y` from column `x` to its end. -/
def lineFrom (x y : Nat) : Region := fun cx cy => cy == y && decide (x ≤ cx)

/-- Row `y` from its start to column `x`, that column included. -/
def lineTo (x y : Nat) : Region := fun cx cy => cy == y && decide (cx ≤ x)

/-- All of row `y`. -/
def line (y : Nat) : Region := fun _ cy => cy == y

/-- The first `lines` rows. -/
def page (lines : Nat) : Region := fun _ cy => decide (cy < lines)

/-- From `(x, y)` to the end of the first `lines` rows in reading order; nothing
when row `y` is not one of them. -/
def below (lines x y : Nat) : Region := fun cx cy =>
  decide (y < lines) &&
    (lineFrom x y cx cy || (decide (y < cy) && decide (cy < lines)))

/-- From the top of the grid to `(x, y)` in reading order, that cell included. A
row `y` past the first `lines` rows stands for the last of them. -/
def above (lines x y : Nat) : Region := fun cx cy =>
  decide (cy < min y (lines - 1)) || lineTo x (min y (lines - 1)) cx cy

end Region

namespace Screen

variable {cols rows : Nat}

/-! ## Erasing -/

/-- Blanks a region in the given colors. -/
def erase (s : Screen cols rows) (region : Region) (attrs : Attrs) : Screen cols rows :=
  s.mapCells fun x y g => if region x y then .blank attrs else g

/-- Blanks the addressable rows. -/
def clear (s : Screen cols rows) (attrs : Attrs) : Screen cols rows :=
  s.erase (.page s.lines) attrs

/-- Blanks row `y` from column `x` to its end. -/
def eraseLineFrom (s : Screen cols rows) (x y : Nat) (attrs : Attrs) : Screen cols rows :=
  s.erase (.lineFrom x y) attrs

/-- Blanks row `y` from its start to column `x` inclusive. -/
def eraseLineTo (s : Screen cols rows) (x y : Nat) (attrs : Attrs) : Screen cols rows :=
  s.erase (.lineTo x y) attrs

/-- Blanks all of row `y`. -/
def eraseLine (s : Screen cols rows) (y : Nat) (attrs : Attrs) : Screen cols rows :=
  s.erase (.line y) attrs

/-- Blanks from `(x, y)` to the end of the addressable rows. -/
def eraseBelow (s : Screen cols rows) (x y : Nat) (attrs : Attrs) : Screen cols rows :=
  s.erase (.below s.lines x y) attrs

/-- Blanks from the top of the grid to `(x, y)` inclusive. -/
def eraseAbove (s : Screen cols rows) (x y : Nat) (attrs : Attrs) : Screen cols rows :=
  s.erase (.above s.lines x y) attrs

/-! ## Scrolling -/

/-- Moves the addressable rows up by `n`. The top `n` of them are lost, and the
rows that open at the bottom are blank in the given colors. -/
def scrollUp (s : Screen cols rows) (n : Nat) (attrs : Attrs) : Screen cols rows :=
  { s with
    cells := s.cells.mapIdx fun y row =>
      if s.lines ≤ y then row
      else if y + n < s.lines then (s.row? (y + n)).getD row
      else .replicate cols (.blank attrs) }

/-! ## What each operation does to the view -/

theorem cell?_erase (s : Screen cols rows) (region : Region) (attrs : Attrs) (x y : Nat) :
    (s.erase region attrs).cell? x y =
      if region x y then (s.cell? x y).map fun _ => .blank attrs else s.cell? x y := by
  rw [erase, cell?_mapCells]
  cases region x y <;> simp

@[simp] theorem hasStatus_erase (s : Screen cols rows) (region : Region) (attrs : Attrs) :
    (s.erase region attrs).hasStatus = s.hasStatus := rfl

@[simp] theorem lines_erase (s : Screen cols rows) (region : Region) (attrs : Attrs) :
    (s.erase region attrs).lines = s.lines := rfl

/-- **Scrolling is a shift of the index.** An addressable cell shows what the cell
`n` rows further down showed, or a blank where there was none; the rows past the
addressable ones stay. -/
theorem cell?_scrollUp (s : Screen cols rows) (n : Nat) (attrs : Attrs) (x y : Nat) :
    (s.scrollUp n attrs).cell? x y =
      if s.lines ≤ y then s.cell? x y
      else if y + n < s.lines then s.cell? x (y + n)
      else (s.cell? x y).map fun _ => .blank attrs := by
  have hl := s.lines_le
  by_cases hy : y < rows
  · by_cases h₁ : s.lines ≤ y
    · simp [cell?, row?, scrollUp, hy, h₁]
    · by_cases h₂ : y + n < s.lines
      · have : y + n < rows := by omega
        simp [cell?, row?, scrollUp, hy, h₁, h₂, this]
      · by_cases hx : x < cols <;> simp [cell?, row?, scrollUp, hy, h₁, h₂, hx]
  · have h₁ : s.lines ≤ y := by omega
    simp [cell?, row?, scrollUp, hy, h₁]

@[simp] theorem hasStatus_scrollUp (s : Screen cols rows) (n : Nat) (attrs : Attrs) :
    (s.scrollUp n attrs).hasStatus = s.hasStatus := rfl

@[simp] theorem lines_scrollUp (s : Screen cols rows) (n : Nat) (attrs : Attrs) :
    (s.scrollUp n attrs).lines = s.lines := rfl

end Screen

end SerialTerminal
