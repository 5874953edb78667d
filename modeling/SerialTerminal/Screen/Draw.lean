/-
Writing text and frames straight onto the grid.

These are the tools of the status line and of the configuration surface, which
own the place they write to. They move no cursor and never wrap: what does not
fit on the grid is cut off, because a write to a cell that is not there does
nothing.
-/
import SerialTerminal.Screen.Erase

set_option autoImplicit false

namespace SerialTerminal

namespace Screen

variable {cols rows : Nat}

/-! ## Text -/

/-- Writes text to row `row` from column `col` on. A code changes the cell that
it comes to by a rule. -/
def writeBy (s : Screen cols rows) (row col : Nat) (rule : UInt8 → Glyph → Glyph) :
    List UInt8 → Screen cols rows
  | [] => s
  | code :: rest => (s.modifyCell col row (rule code)).writeBy row (col + 1) rule rest

/-- Writes text to row `row` from column `col` on, in the colors that the cells
have. -/
def writeText (s : Screen cols rows) (row col : Nat) (text : List UInt8) : Screen cols rows :=
  s.writeBy row col (fun code g => g.withCode code) text

/-- Writes text to row `row` from column `col` on, in the given colors. -/
def writeColored (s : Screen cols rows) (row col : Nat) (attrs : Attrs) (text : List UInt8) :
    Screen cols rows :=
  s.writeBy row col (fun code _ => .ofCode code attrs) text

/-- Fills the status row: `left` at its start and `right` against its end, the
second on top where they meet, in the given colors. A text longer than the row
starts at column `0`. Without a status row nothing happens. -/
def writeStatus (s : Screen cols rows) (left right : List UInt8) (attrs : Attrs) :
    Screen cols rows :=
  if s.hasStatus then
    let y := rows - 1
    ((s.eraseLine y attrs).writeText y 0 left).writeText y (cols - right.length) right
  else s

/-! ## Frames -/

/-- The font codes of the pieces of a frame. -/
structure FrameShapes where
  upperLeft : UInt8
  upperRight : UInt8
  lowerLeft : UInt8
  lowerRight : UInt8
  horizontal : UInt8
  vertical : UInt8

/-- Where the font keeps them. -/
def frameShapes : FrameShapes where
  upperLeft := 0x1C
  upperRight := 0x19
  lowerLeft := 0x16
  lowerRight := 0x13
  horizontal := 0x15
  vertical := 0x1A

/-- Puts one glyph at each of the given cells. -/
def stroke (s : Screen cols rows) (cells : List (Nat × Nat)) (g : Glyph) : Screen cols rows :=
  cells.foldl (fun s c => s.put c.1 c.2 g) s

/-- The columns of the grid strictly between two columns. Only these are worth
drawing on: a frame may reach far past the edge of the grid. -/
def columnsBetween (cols left right : Nat) : List Nat :=
  (List.range cols).filter fun x => decide (left < x) && decide (x < right)

/-- Draws the frame whose upper left corner is `(col, row)`; width and height
count the border. A frame needs both to be at least two, and a smaller one is
not drawn. -/
def drawBox (s : Screen cols rows) (row col width height : Nat) (attrs : Attrs) :
    Screen cols rows :=
  if width < 2 ∨ height < 2 then s
  else
    let right := col + width - 1
    let bottom := row + height - 1
    let xs := columnsBetween cols col right
    let ys := columnsBetween rows row bottom
    let glyph := fun code => Glyph.ofCode code attrs
    s |>.stroke (xs.map fun x => (x, row)) (glyph frameShapes.horizontal)
      |>.stroke (xs.map fun x => (x, bottom)) (glyph frameShapes.horizontal)
      |>.stroke (ys.map fun y => (col, y)) (glyph frameShapes.vertical)
      |>.stroke (ys.map fun y => (right, y)) (glyph frameShapes.vertical)
      |>.put col row (glyph frameShapes.upperLeft)
      |>.put right row (glyph frameShapes.upperRight)
      |>.put col bottom (glyph frameShapes.lowerLeft)
      |>.put right bottom (glyph frameShapes.lowerRight)

/-! ## What text does to the view -/

/-- **Text changes the cells it covers, each by its own code, and no others.** -/
theorem cell?_writeBy (s : Screen cols rows) (row col : Nat) (rule : UInt8 → Glyph → Glyph)
    (text : List UInt8) (x y : Nat) :
    (s.writeBy row col rule text).cell? x y =
      if y = row ∧ col ≤ x then
        match text[x - col]? with
        | some code => (s.cell? x y).map (rule code)
        | none => s.cell? x y
      else s.cell? x y := by
  induction text generalizing s col with
  | nil => simp [writeBy]
  | cons code rest ih =>
    rw [writeBy, ih, cell?_modifyCell]
    by_cases hy : y = row
    · by_cases hx : x = col
      · subst hx
        have past : ¬ x + 1 ≤ x := by omega
        simp [hy, past]
      · by_cases hlt : col ≤ x
        · have h₁ : col + 1 ≤ x := by omega
          have h₂ : x - col = x - (col + 1) + 1 := by omega
          simp [hy, hx, hlt, h₁, h₂]
        · have h₁ : ¬ col + 1 ≤ x := by omega
          simp [hy, hx, hlt, h₁]
    · simp [hy]

theorem cell?_writeText (s : Screen cols rows) (row col : Nat) (text : List UInt8) (x y : Nat) :
    (s.writeText row col text).cell? x y =
      if y = row ∧ col ≤ x then
        match text[x - col]? with
        | some code => (s.cell? x y).map (·.withCode code)
        | none => s.cell? x y
      else s.cell? x y :=
  cell?_writeBy ..

@[simp] theorem hasStatus_writeBy (s : Screen cols rows) (row col : Nat)
    (rule : UInt8 → Glyph → Glyph) (text : List UInt8) :
    (s.writeBy row col rule text).hasStatus = s.hasStatus := by
  induction text generalizing s col with
  | nil => rfl
  | cons code rest ih => rw [writeBy, ih, hasStatus_modifyCell]

@[simp] theorem hasStatus_writeText (s : Screen cols rows) (row col : Nat) (text : List UInt8) :
    (s.writeText row col text).hasStatus = s.hasStatus :=
  hasStatus_writeBy ..

@[simp] theorem hasStatus_writeColored (s : Screen cols rows) (row col : Nat) (attrs : Attrs)
    (text : List UInt8) : (s.writeColored row col attrs text).hasStatus = s.hasStatus :=
  hasStatus_writeBy ..

@[simp] theorem hasStatus_writeStatus (s : Screen cols rows) (left right : List UInt8)
    (attrs : Attrs) : (s.writeStatus left right attrs).hasStatus = s.hasStatus := by
  unfold writeStatus
  split
  · simp [eraseLine]
  · rfl

@[simp] theorem hasStatus_stroke (s : Screen cols rows) (cells : List (Nat × Nat)) (g : Glyph) :
    (s.stroke cells g).hasStatus = s.hasStatus := by
  unfold stroke
  induction cells generalizing s with
  | nil => rfl
  | cons c rest ih => rw [List.foldl_cons, ih, hasStatus_put]

@[simp] theorem hasStatus_drawBox (s : Screen cols rows) (row col width height : Nat)
    (attrs : Attrs) : (s.drawBox row col width height attrs).hasStatus = s.hasStatus := by
  unfold drawBox
  split <;> simp

end Screen

end SerialTerminal
