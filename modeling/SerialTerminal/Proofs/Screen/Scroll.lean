/-
Scrolling, as a shift and in place.

The definition says where each row comes from. In place the rows are moved another way: the
addressable ones are turned, so that those from the top come around to the bottom, where they
are blanked. Nothing at all, and more than there is, are cases of their own. **Both ways lead
to the same screen** (`scrollUp_eq_inPlace`), so the cases meet where they border on each other.

Of the shift it is plain that two in a row add up (`scrollUp_scrollUp`), and that from the
number of addressable rows on it clears the page (`scrollUp_eq_clear`).
-/
import Mathlib.Data.List.Rotate
import SerialTerminal.Screen.Erase

set_option autoImplicit false

namespace SerialTerminal

/-- The rows from `top` on and above `bottom`. -/
def Region.rows (top bottom : Nat) : Region := fun _ y => decide (top ≤ y) && decide (y < bottom)

theorem Region.rows_eq_true_iff (top bottom x y : Nat) :
    rows top bottom x y = true ↔ top ≤ y ∧ y < bottom := by
  rw [rows, Bool.and_eq_true, decide_eq_true_eq, decide_eq_true_eq]

namespace Screen

variable {cols rows : Nat} (s : Screen cols rows)

/-! ## The shift -/

theorem scrollUp_zero (attrs : Attrs) : s.scrollUp 0 attrs = s := by
  refine ext_cell? (fun x y => ?_) rfl
  rw [cell?_scrollUp]
  by_cases past : s.lines ≤ y
  · rw [if_pos past]
  · rw [if_neg past, Nat.add_zero, if_pos (Nat.not_le.1 past)]

/-- From the number of addressable rows on, none is left. -/
theorem scrollUp_eq_clear {n : Nat} (all : s.lines ≤ n) (attrs : Attrs) :
    s.scrollUp n attrs = s.clear attrs := by
  refine ext_cell? (fun x y => ?_) rfl
  rw [cell?_scrollUp, clear, cell?_erase]
  by_cases past : s.lines ≤ y
  · have out : ¬ Region.page s.lines x y = true := by
      rw [Region.page, decide_eq_true_eq]
      exact Nat.not_lt.2 past
    rw [if_pos past, if_neg out]
  · have inside : Region.page s.lines x y = true := decide_eq_true (Nat.not_le.1 past)
    have gone : ¬ y + n < s.lines := by omega
    rw [if_neg past, if_neg gone, if_pos inside]

/-- Cells of one column that are filled without a look at them are the same. -/
theorem map_const_cell?_of_lt (t : Screen cols rows) (g : Glyph) (x : Nat) {y y' : Nat}
    (hy : y < rows) (hy' : y' < rows) :
    (s.cell? x y).map (fun _ => g) = (t.cell? x y').map fun _ => g := by
  by_cases hx : x < cols
  · rw [cell?_eq_some hx hy, cell?_eq_some hx hy', Option.map_some, Option.map_some]
  · rw [(cell?_eq_none_iff s x y).2 fun there => hx there.1,
      (cell?_eq_none_iff t x y').2 fun there => hx there.1]

/-- A blank that the first shift has let in is moved up or blanked again by the second, in the
same colors. -/
theorem scrollUp_scrollUp (i j : Nat) (attrs : Attrs) :
    (s.scrollUp i attrs).scrollUp j attrs = s.scrollUp (i + j) attrs := by
  refine ext_cell? (fun x y => ?_) rfl
  rw [cell?_scrollUp, lines_scrollUp, s.cell?_scrollUp (i + j)]
  by_cases past : s.lines ≤ y
  · rw [if_pos past, if_pos past, cell?_scrollUp, if_pos past]
  · have here : y < rows := Nat.lt_of_lt_of_le (Nat.not_le.1 past) s.lines_le
    rw [if_neg past, if_neg past]
    -- the second shift reaches into the page, or not; if it does, so may the sum
    by_cases near : y + j < s.lines
    · have there : y + j < rows := Nat.lt_of_lt_of_le near s.lines_le
      have sum : y + j + i = y + (i + j) := by omega
      rw [if_pos near, cell?_scrollUp, if_neg (Nat.not_le.2 near), sum]
      by_cases far : y + (i + j) < s.lines
      · rw [if_pos far, if_pos far]
      · rw [if_neg far, if_neg far]
        exact s.map_const_cell?_of_lt s _ x there here
    · have far : ¬ y + (i + j) < s.lines := by omega
      rw [if_neg near, if_neg far]
      exact (s.scrollUp i attrs).map_const_cell?_of_lt s _ x here here

/-! ## Turning the rows -/

/-- The addressable rows with the first `n` of them moved below the others, and the rest. -/
def turned (n : Nat) : List (Vector Glyph cols) :=
  (s.cells.toList.take s.lines).rotate n ++ s.cells.toList.drop s.lines

theorem length_turned (n : Nat) : (s.turned n).length = rows := by
  rw [turned, List.length_append, List.length_rotate, ← List.length_append, List.take_append_drop,
    Vector.length_toList]

/-- The screen with its addressable rows turned. -/
def turn (n : Nat) : Screen cols rows :=
  { s with cells := ⟨(s.turned n).toArray, s.length_turned n⟩ }

/-- Past the last addressable row comes the first one. -/
theorem getElem?_turned (n y : Nat) :
    (s.turned n)[y]? = if y < s.lines then s.row? ((y + n) % s.lines) else s.row? y := by
  have length : (s.cells.toList.take s.lines).length = s.lines := by
    rw [List.length_take, Vector.length_toList]
    exact Nat.min_eq_left s.lines_le
  have length' : ((s.cells.toList.take s.lines).rotate n).length = s.lines := by
    rw [List.length_rotate, length]
  rw [turned]
  -- the first `lines` of the rows come from the turned part, the others from the rest
  by_cases inside : y < s.lines
  · have around : (y + n) % s.lines < s.lines := Nat.mod_lt _ (Nat.zero_lt_of_lt inside)
    rw [if_pos inside, List.getElem?_append_left (by rwa [length']),
      List.getElem?_rotate (by rwa [length]), length, List.getElem?_take_of_lt around,
      Vector.getElem?_toList, row?]
  · have past : s.lines ≤ y := Nat.not_lt.1 inside
    rw [if_neg inside, List.getElem?_append_right (by rwa [length']), List.getElem?_drop, length',
      Nat.add_sub_cancel' past, Vector.getElem?_toList, row?]

theorem cell?_turn (n x y : Nat) :
    (s.turn n).cell? x y = if y < s.lines then s.cell? x ((y + n) % s.lines) else s.cell? x y := by
  have row : (s.turn n).row? y = (s.turned n)[y]? := by
    simp only [row?, turn, Vector.getElem?_mk, List.getElem?_toArray]
  rw [cell?, row, getElem?_turned]
  split
  · rfl
  · rfl

/-- A shift by fewer rows than there are is a turn, after which the rows that have come around
are blanked. -/
theorem scrollUp_eq_erase_turn {n : Nat} (fewer : n < s.lines) (attrs : Attrs) :
    s.scrollUp n attrs = (s.turn n).erase (.rows (s.lines - n) s.lines) attrs := by
  refine ext_cell? (fun x y => ?_) rfl
  rw [cell?_scrollUp, cell?_erase, cell?_turn]
  by_cases past : s.lines ≤ y
  · have out : ¬ Region.rows (s.lines - n) s.lines x y = true := by
      rw [Region.rows_eq_true_iff]
      omega
    rw [if_pos past, if_neg out, if_neg (Nat.not_lt.2 past)]
  · have here : y < rows := Nat.lt_of_lt_of_le (Nat.not_le.1 past) s.lines_le
    rw [if_neg past, if_pos (Nat.not_le.1 past)]
    by_cases moved : y + n < s.lines
    · have out : ¬ Region.rows (s.lines - n) s.lines x y = true := by
        rw [Region.rows_eq_true_iff]
        omega
      rw [if_pos moved, if_neg out, Nat.mod_eq_of_lt moved]
    · have inside : Region.rows (s.lines - n) s.lines x y = true := by
        rw [Region.rows_eq_true_iff]
        omega
      have there : (y + n) % s.lines < rows :=
        Nat.lt_of_lt_of_le (Nat.mod_lt _ (Nat.zero_lt_of_lt fewer)) s.lines_le
      rw [if_neg moved, if_pos inside]
      exact s.map_const_cell?_of_lt s _ x here there

/-- Scrolling in place, with the two cases in which no row is turned. -/
def scrollInPlace (n : Nat) (attrs : Attrs) : Screen cols rows :=
  if n = 0 then s
  else if s.lines ≤ n then s.clear attrs
  else (s.turn n).erase (.rows (s.lines - n) s.lines) attrs

/-- **Scrolling in place is the shift.** -/
theorem scrollUp_eq_inPlace (n : Nat) (attrs : Attrs) :
    s.scrollUp n attrs = s.scrollInPlace n attrs := by
  rw [scrollInPlace]
  by_cases none : n = 0
  · rw [if_pos none, none, scrollUp_zero]
  · rw [if_neg none]
    by_cases all : s.lines ≤ n
    · rw [if_pos all, scrollUp_eq_clear s all]
    · rw [if_neg all, scrollUp_eq_erase_turn s (Nat.not_le.1 all)]

end Screen

end SerialTerminal
