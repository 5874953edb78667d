/-
The status row, apart from the rows above it.

`setLastRow` fills the last row of the grid and looks at no cell. **What writes only
to the rows above it commutes with it**, and that one equation says two things: the last
row is left alone, and nothing that is read comes from there. For a single cell it is
enough that the cell is in another row; the operations on the whole page stop at
`lines`, so for them it is the status flag that counts.

The status line itself is a `setLastRow` and nothing else (`writeStatus_eq`), with a
row that the two texts, the colors and the width determine: **the right text against the
right edge, the left text in the columns that it leaves, and spaces**
(`status_line_layout`).
-/
import SerialTerminal.Screen.Draw

set_option autoImplicit false

namespace SerialTerminal

namespace Region

/-- The region has no cell in the last of `rows` rows. -/
def Spares (rows : Nat) (region : Region) : Prop :=
  ∀ x y, region x y = true → y + 1 ≠ rows

variable {rows lines y : Nat}

theorem spares_line (above : y + 1 ≠ rows) : (line y).Spares rows := by
  intro cx cy member
  have here : cy = y := by simpa [line] using member
  rw [here]
  exact above

theorem spares_lineFrom (above : y + 1 ≠ rows) (x : Nat) : (lineFrom x y).Spares rows := by
  intro cx cy member
  exact spares_line above cx cy (Bool.and_eq_true_iff.1 member).1

theorem spares_lineTo (above : y + 1 ≠ rows) (x : Nat) : (lineTo x y).Spares rows := by
  intro cx cy member
  exact spares_line above cx cy (Bool.and_eq_true_iff.1 member).1

theorem spares_page (spare : lines < rows) : (page lines).Spares rows := by
  intro cx cy member
  have inside : cy < lines := of_decide_eq_true member
  omega

theorem spares_below (spare : lines < rows) (x y : Nat) : (below lines x y).Spares rows := by
  intro cx cy member
  simp only [below, lineFrom, Bool.and_eq_true, Bool.or_eq_true, decide_eq_true_eq,
    beq_iff_eq] at member
  omega

/-- The row at which the region ends is brought up to an addressable one. -/
theorem spares_above (some_line : 0 < lines) (spare : lines < rows) (x y : Nat) :
    (above lines x y).Spares rows := by
  intro cx cy member
  simp only [above, lineTo, Bool.and_eq_true, Bool.or_eq_true, decide_eq_true_eq,
    beq_iff_eq] at member
  omega

end Region

namespace Screen

variable {cols rows : Nat}

/-! ## Filling the last row -/

/-- Replaces the cells of the last row. -/
def setLastRow (s : Screen cols rows) (row : Nat → Glyph) : Screen cols rows :=
  s.mapCells fun x y g => if y + 1 = rows then row x else g

theorem cell?_setLastRow (s : Screen cols rows) (row : Nat → Glyph) (x y : Nat) :
    (s.setLastRow row).cell? x y =
      if y + 1 = rows then (s.cell? x y).map fun _ => row x else s.cell? x y := by
  rw [setLastRow, cell?_mapCells]
  by_cases last : y + 1 = rows
  · simp only [if_pos last]
  · simp only [if_neg last, Option.map_id']

@[simp] theorem hasStatus_setLastRow (s : Screen cols rows) (row : Nat → Glyph) :
    (s.setLastRow row).hasStatus = s.hasStatus := rfl

@[simp] theorem lines_setLastRow (s : Screen cols rows) (row : Nat → Glyph) :
    (s.setLastRow row).lines = s.lines := rfl

theorem setLastRow_setLastRow (s : Screen cols rows) (row other : Nat → Glyph) :
    (s.setLastRow row).setLastRow other = s.setLastRow other := by
  refine ext_cell? (fun x y => ?_) rfl
  rw [cell?_setLastRow, cell?_setLastRow, cell?_setLastRow]
  by_cases last : y + 1 = rows
  · rw [if_pos last, if_pos last, if_pos last, Option.map_map]
    rfl
  · rw [if_neg last, if_neg last, if_neg last]

/-- Filling the last row with what it shows changes nothing, and only that. -/
theorem setLastRow_eq_self_iff (s : Screen cols rows) (row : Nat → Glyph) :
    s.setLastRow row = s ↔ ∀ x y g, y + 1 = rows → s.cell? x y = some g → g = row x := by
  constructor
  · intro same x y g last hg
    have filled := s.cell?_setLastRow row x y
    rw [same, if_pos last, hg] at filled
    exact Option.some.inj filled
  · intro shows
    refine ext_cell? (fun x y => ?_) rfl
    rw [cell?_setLastRow]
    by_cases last : y + 1 = rows
    · rw [if_pos last]
      cases hg : s.cell? x y with
      | none => rfl
      | some g => rw [Option.map_some, shows x y g last hg]
    · rw [if_neg last]

/-- A grid without columns has no cell to fill. -/
theorem setLastRow_of_no_cols (s : Screen 0 rows) (row : Nat → Glyph) : s.setLastRow row = s := by
  rw [setLastRow_eq_self_iff]
  intro x y g _ hg
  have there := (s.isSome_cell? x y).1 (Option.isSome_of_eq_some hg)
  exact absurd there.1 (Nat.not_lt_zero x)

/-! ## What spares the last row -/

theorem modifyCell_setLastRow (s : Screen cols rows) (row : Nat → Glyph) {y : Nat}
    (above : y + 1 ≠ rows) (x : Nat) (f : Glyph → Glyph) :
    (s.setLastRow row).modifyCell x y f = (s.modifyCell x y f).setLastRow row := by
  refine ext_cell? (fun cx cy => ?_) ?_
  · rw [cell?_modifyCell, cell?_setLastRow, cell?_setLastRow, cell?_modifyCell]
    by_cases last : cy + 1 = rows
    · have apart : ¬ (cx = x ∧ cy = y) := by
        rintro ⟨-, rfl⟩
        exact above last
      rw [if_neg apart, if_neg apart]
    · rw [if_neg last, if_neg last]
  · rw [hasStatus_modifyCell, hasStatus_setLastRow, hasStatus_setLastRow, hasStatus_modifyCell]

theorem put_setLastRow (s : Screen cols rows) (row : Nat → Glyph) {y : Nat}
    (above : y + 1 ≠ rows) (x : Nat) (g : Glyph) :
    (s.setLastRow row).put x y g = (s.put x y g).setLastRow row :=
  modifyCell_setLastRow s row above x _

theorem setCode_setLastRow (s : Screen cols rows) (row : Nat → Glyph) {y : Nat}
    (above : y + 1 ≠ rows) (x : Nat) (code : UInt8) :
    (s.setLastRow row).setCode x y code = (s.setCode x y code).setLastRow row :=
  modifyCell_setLastRow s row above x _

theorem erase_setLastRow (s : Screen cols rows) (row : Nat → Glyph) {region : Region}
    (spares : region.Spares rows) (attrs : Attrs) :
    (s.setLastRow row).erase region attrs = (s.erase region attrs).setLastRow row := by
  refine ext_cell? (fun x y => ?_) rfl
  rw [cell?_erase, cell?_setLastRow, cell?_setLastRow, cell?_erase]
  by_cases last : y + 1 = rows
  · have out : ¬ region x y = true := fun member => spares x y member last
    rw [if_neg out, if_neg out]
  · rw [if_neg last, if_neg last]

theorem eraseLineFrom_setLastRow (s : Screen cols rows) (row : Nat → Glyph) {y : Nat}
    (above : y + 1 ≠ rows) (x : Nat) (attrs : Attrs) :
    (s.setLastRow row).eraseLineFrom x y attrs = (s.eraseLineFrom x y attrs).setLastRow row :=
  erase_setLastRow s row (Region.spares_lineFrom above x) attrs

theorem eraseLineTo_setLastRow (s : Screen cols rows) (row : Nat → Glyph) {y : Nat}
    (above : y + 1 ≠ rows) (x : Nat) (attrs : Attrs) :
    (s.setLastRow row).eraseLineTo x y attrs = (s.eraseLineTo x y attrs).setLastRow row :=
  erase_setLastRow s row (Region.spares_lineTo above x) attrs

theorem eraseLine_setLastRow (s : Screen cols rows) (row : Nat → Glyph) {y : Nat}
    (above : y + 1 ≠ rows) (attrs : Attrs) :
    (s.setLastRow row).eraseLine y attrs = (s.eraseLine y attrs).setLastRow row :=
  erase_setLastRow s row (Region.spares_line above) attrs

/-- With the status row reserved, every row but the last is addressable. -/
theorem lines_add_one {s : Screen cols rows} (reserved : s.hasStatus = true) :
    s.lines + 1 = rows := by
  have spare := s.one_lt_rows reserved
  rw [lines, if_pos reserved]
  omega

theorem lines_lt {s : Screen cols rows} (reserved : s.hasStatus = true) : s.lines < rows :=
  Nat.lt_of_succ_le (Nat.le_of_eq (lines_add_one reserved))

theorem clear_setLastRow {s : Screen cols rows} (reserved : s.hasStatus = true)
    (row : Nat → Glyph) (attrs : Attrs) :
    (s.setLastRow row).clear attrs = (s.clear attrs).setLastRow row :=
  erase_setLastRow s row (Region.spares_page (lines_lt reserved)) attrs

theorem eraseBelow_setLastRow {s : Screen cols rows} (reserved : s.hasStatus = true)
    (row : Nat → Glyph) (x y : Nat) (attrs : Attrs) :
    (s.setLastRow row).eraseBelow x y attrs = (s.eraseBelow x y attrs).setLastRow row :=
  erase_setLastRow s row (Region.spares_below (lines_lt reserved) x y) attrs

theorem eraseAbove_setLastRow {s : Screen cols rows} (reserved : s.hasStatus = true)
    (row : Nat → Glyph) (x y : Nat) (attrs : Attrs) :
    (s.setLastRow row).eraseAbove x y attrs = (s.eraseAbove x y attrs).setLastRow row := by
  have some_line : 0 < s.lines := s.lines_pos (Nat.zero_lt_of_lt (lines_lt reserved))
  exact erase_setLastRow s row (Region.spares_above some_line (lines_lt reserved) x y) attrs

theorem scrollUp_setLastRow {s : Screen cols rows} (reserved : s.hasStatus = true)
    (row : Nat → Glyph) (n : Nat) (attrs : Attrs) :
    (s.setLastRow row).scrollUp n attrs = (s.scrollUp n attrs).setLastRow row := by
  have hlines := lines_add_one reserved
  refine ext_cell? (fun x y => ?_) rfl
  simp only [cell?_scrollUp, cell?_setLastRow, lines_setLastRow]
  by_cases last : y + 1 = rows
  · have past : s.lines ≤ y := by omega
    rw [if_pos past, if_pos past]
  · rw [if_neg last, if_neg last]
    -- a row that moves up comes from above the last row
    by_cases inside : y + n < s.lines
    · have source : ¬ y + n + 1 = rows := by omega
      rw [if_neg source]
    · rw [if_neg inside, if_neg inside]

/-! ## The status line -/

/-- The code that the status line has in a column: that of the right text, which ends at
the right edge, then that of the left text, then a space. -/
def statusCode (cols : Nat) (left right : List UInt8) (x : Nat) : UInt8 :=
  let start := cols - right.length
  if start ≤ x ∧ x < start + right.length then right.getD (x - start) Ascii.space
  else left.getD x Ascii.space

/-- The row that the status line is. -/
def statusGlyph (cols : Nat) (left right : List UInt8) (attrs : Attrs) (x : Nat) : Glyph :=
  .ofCode (statusCode cols left right x) attrs

theorem cell?_eraseLine (s : Screen cols rows) (y : Nat) (attrs : Attrs) (cx cy : Nat) :
    (s.eraseLine y attrs).cell? cx cy =
      if cy = y then (s.cell? cx cy).map fun _ => .blank attrs else s.cell? cx cy := by
  rw [eraseLine, cell?_erase]
  simp only [Region.line, beq_iff_eq]

/-- In its own row a text shows where it has a code for the column. -/
theorem cell?_writeText_row (s : Screen cols rows) (y col : Nat) (text : List UInt8) (x : Nat) :
    (s.writeText y col text).cell? x y =
      if col ≤ x ∧ x < col + text.length then
        (s.cell? x y).map (·.withCode (text.getD (x - col) Ascii.space))
      else s.cell? x y := by
  rw [cell?_writeText]
  by_cases start : col ≤ x
  · rw [if_pos ⟨rfl, start⟩]
    by_cases inside : x < col + text.length
    · have there : x - col < text.length := by omega
      rw [if_pos ⟨start, inside⟩, List.getElem?_eq_getElem there,
        List.getD_eq_getElem?_getD, List.getElem?_eq_getElem there, Option.getD_some]
    · have past : text.length ≤ x - col := by omega
      rw [if_neg (fun h => inside h.2), List.getElem?_eq_none past]
  · rw [if_neg (fun h => start h.2), if_neg (fun h => start h.1)]

/-- **Drawing the status line is filling the last row.** -/
theorem writeStatus_eq {s : Screen cols rows} (reserved : s.hasStatus = true)
    (left right : List UInt8) (attrs : Attrs) :
    s.writeStatus left right attrs = s.setLastRow (statusGlyph cols left right attrs) := by
  have spare := s.one_lt_rows reserved
  refine ext_cell? (fun x y => ?_) ?_
  · rw [writeStatus, if_pos reserved, cell?_setLastRow]
    by_cases last : y + 1 = rows
    · obtain rfl : rows - 1 = y := by omega
      rw [if_pos last, cell?_writeText_row, cell?_writeText_row, cell?_eraseLine, if_pos rfl,
        statusGlyph, statusCode]
      by_cases onRight : cols - right.length ≤ x ∧ x < cols - right.length + right.length
      · -- the right text covers whatever is under it
        rw [if_pos onRight, if_pos onRight]
        by_cases onLeft : 0 ≤ x ∧ x < 0 + left.length
        · rw [if_pos onLeft, Option.map_map, Option.map_map]
          rfl
        · rw [if_neg onLeft, Option.map_map]
          rfl
      · rw [if_neg onRight, if_neg onRight]
        by_cases onLeft : 0 ≤ x ∧ x < 0 + left.length
        · rw [if_pos onLeft, Option.map_map]
          rfl
        · have past : left.length ≤ x := by omega
          rw [if_neg onLeft, List.getD_eq_getElem?_getD, List.getElem?_eq_none past]
          rfl
    · have apart : ¬ y = rows - 1 := by omega
      simp only [cell?_writeText, cell?_eraseLine, apart, last, false_and, if_false]
  · rw [hasStatus_writeStatus, hasStatus_setLastRow]

/-! ## The layout of the status line -/

section Layout

variable (left right : List UInt8)

theorem statusCode_right {i : Nat} (inside : i < right.length) :
    statusCode cols left right (cols - right.length + i) = right[i] := by
  have covered : cols - right.length ≤ cols - right.length + i ∧
      cols - right.length + i < cols - right.length + right.length := by omega
  rw [statusCode, if_pos covered, Nat.add_sub_cancel_left, List.getD_eq_getElem?_getD,
    List.getElem?_eq_getElem inside, Option.getD_some]

/-- Beside the right text the left one counts. -/
theorem statusCode_of_free {x : Nat}
    (free : x < cols - right.length ∨ cols - right.length + right.length ≤ x) :
    statusCode cols left right x = left.getD x Ascii.space := by
  have uncovered : ¬ (cols - right.length ≤ x ∧ x < cols - right.length + right.length) := by
    omega
  exact if_neg uncovered

theorem statusCode_left {x : Nat} (inside : x < left.length)
    (free : x < cols - right.length ∨ cols - right.length + right.length ≤ x) :
    statusCode cols left right x = left[x] := by
  rw [statusCode_of_free left right free, List.getD_eq_getElem?_getD,
    List.getElem?_eq_getElem inside, Option.getD_some]

theorem statusCode_space {x : Nat} (past : left.length ≤ x)
    (free : x < cols - right.length ∨ cols - right.length + right.length ≤ x) :
    statusCode cols left right x = Ascii.space := by
  rw [statusCode_of_free left right free, List.getD_eq_getElem?_getD,
    List.getElem?_eq_none past, Option.getD_none]

theorem cell?_writeStatus {s : Screen cols rows} (reserved : s.hasStatus = true) (attrs : Attrs)
    {x : Nat} (hx : x < cols) :
    (s.writeStatus left right attrs).cell? x (rows - 1) =
      some (.ofCode (statusCode cols left right x) attrs) := by
  have spare := s.one_lt_rows reserved
  have last : rows - 1 + 1 = rows := by omega
  have there : rows - 1 < rows := by omega
  rw [writeStatus_eq reserved, cell?_setLastRow, if_pos last, cell?_eq_some hx there]
  rfl

/-- **The layout of the status line.** The right text begins where it has to for its end to be at
the right edge, and at the first column when there is not room for that. The columns it covers
show it; the others show the left text as far as that goes, and then spaces. All of the row is in
the colors given, and no other row changes. A screen that reserves no row for it stays as it
is. -/
theorem status_line_layout (s : Screen cols rows) (attrs : Attrs) :
    let start := cols - right.length
    let s' := s.writeStatus left right attrs
    s'.hasStatus = s.hasStatus ∧
    (s.hasStatus = true →
      (∀ i (inside : i < right.length), start + i < cols →
        s'.cell? (start + i) (rows - 1) = some (.ofCode right[i] attrs)) ∧
      (∀ x, x < cols → x < start ∨ start + right.length ≤ x →
        (∀ inside : x < left.length, s'.cell? x (rows - 1) = some (.ofCode left[x] attrs)) ∧
        (left.length ≤ x → s'.cell? x (rows - 1) = some (.ofCode Ascii.space attrs))) ∧
      (right.length ≤ cols → start + right.length = cols) ∧
      (cols ≤ right.length → start = 0) ∧
      ∀ x y, y ≠ rows - 1 → s'.cell? x y = s.cell? x y) ∧
    (s.hasStatus = false → s' = s) := by
  intro start s'
  refine ⟨hasStatus_writeStatus .., fun reserved => ⟨fun i inside hx => ?_,
    fun x hx free => ⟨fun inside => ?_, fun past => ?_⟩, fun fits => ?_, fun long => ?_,
    fun x y above => ?_⟩, fun released => ?_⟩
  · rw [cell?_writeStatus left right reserved attrs hx, statusCode_right left right inside]
  · rw [cell?_writeStatus left right reserved attrs hx, statusCode_left left right inside free]
  · rw [cell?_writeStatus left right reserved attrs hx, statusCode_space left right past free]
  · exact Nat.sub_add_cancel fits
  · exact Nat.sub_eq_zero_of_le long
  · have apart : ¬ y + 1 = rows := by omega
    have filled : s' = s.setLastRow (statusGlyph cols left right attrs) :=
      writeStatus_eq reserved left right attrs
    rw [filled, cell?_setLastRow, if_neg apart]
  · exact if_neg (Bool.eq_false_iff.1 released)

/-- In five columns the end of the left text gives way to the right one; a right text of seven
codes shows its first five. -/
theorem status_line_layout_narrow :
    let attrs : Attrs := ⟨.black, .white⟩
    let s := (blank 5 3 ⟨.white, .black⟩).setStatus true attrs
    let both := s.writeStatus [0x41, 0x42, 0x43, 0x44] [0x78, 0x79, 0x7A] attrs
    let long := s.writeStatus [0x41] [0x31, 0x32, 0x33, 0x34, 0x35, 0x36, 0x37] attrs
    s.hasStatus = true ∧
      both.cell? 1 2 = some (.ofCode 0x42 attrs) ∧
      both.cell? 2 2 = some (.ofCode 0x78 attrs) ∧
      both.cell? 4 2 = some (.ofCode 0x7A attrs) ∧
      both.cell? 2 1 = s.cell? 2 1 ∧
      long.cell? 0 2 = some (.ofCode 0x31 attrs) ∧
      long.cell? 4 2 = some (.ofCode 0x35 attrs) := by
  intro attrs s both long
  have reserved : s.hasStatus = true := by decide +kernel
  obtain ⟨onRight, onLeft, -, -, above⟩ := (status_line_layout [0x41, 0x42, 0x43, 0x44]
    [0x78, 0x79, 0x7A] s attrs).2.1 reserved
  obtain ⟨cut, -⟩ := (status_line_layout [0x41] [0x31, 0x32, 0x33, 0x34, 0x35, 0x36, 0x37] s
    attrs).2.1 reserved
  exact ⟨reserved, (onLeft 1 (by decide) (by decide)).1 (by decide),
    onRight 0 (by decide) (by decide), onRight 2 (by decide) (by decide), above 2 1 (by decide),
    cut 0 (by decide) (by decide), cut 4 (by decide) (by decide)⟩

end Layout

end Screen

end SerialTerminal
