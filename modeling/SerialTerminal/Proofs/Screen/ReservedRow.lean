/-
What clearing, erasing and scrolling do to the reserved row.

The operations on the whole page stop above it, at whatever cell they are asked to begin or to
end. The erasures of one line stop at nothing but the grid, so **the reserved row is reached by
the erasures that are aimed at it, and by no others** (`reserved_row_wiped_when_aimed_at`): any
of the three blanks what it would blank of any row (`reserved_row_wiped_by_line`).
-/
import Mathlib.Data.List.Induction
import SerialTerminal.Proofs.Screen.StatusRow

set_option autoImplicit false

namespace SerialTerminal

/-- The ways to blank cells or to move them away. -/
inductive Wipe where
  | page
  | lineFrom (x y : Nat)
  | lineTo (x y : Nat)
  | line (y : Nat)
  | below (x y : Nat)
  | above (x y : Nat)
  | scrollUp (n : Nat)

/-- What a wipe of a single line is aimed at. The others are not aimed at any line, even if they
are told one to begin or to end at. -/
def Wipe.aim : Wipe → Region
  | lineFrom x y => Region.lineFrom x y
  | lineTo x y => Region.lineTo x y
  | line y => Region.line y
  | page | below .. | above .. | scrollUp _ => fun _ _ => false

namespace Screen

variable {cols rows : Nat}

def wipe (s : Screen cols rows) (attrs : Attrs) : Wipe → Screen cols rows
  | .page => s.clear attrs
  | .lineFrom x y => s.eraseLineFrom x y attrs
  | .lineTo x y => s.eraseLineTo x y attrs
  | .line y => s.eraseLine y attrs
  | .below x y => s.eraseBelow x y attrs
  | .above x y => s.eraseAbove x y attrs
  | .scrollUp n => s.scrollUp n attrs

/-- One wipe after the other, each in its own colors. -/
def wipeAll (s : Screen cols rows) (wipes : List (Wipe × Attrs)) : Screen cols rows :=
  wipes.foldl (fun s w => s.wipe w.2 w.1) s

/-! ## One wipe -/

theorem hasStatus_wipe (s : Screen cols rows) (attrs : Attrs) (w : Wipe) :
    (s.wipe attrs w).hasStatus = s.hasStatus := by
  cases w <;> rfl

theorem cell?_erase_of_spares (s : Screen cols rows) {region : Region}
    (spares : region.Spares rows) (attrs : Attrs) (x : Nat) {y : Nat} (last : y + 1 = rows) :
    (s.erase region attrs).cell? x y = s.cell? x y := by
  have out : ¬ region x y = true := fun member => spares x y member last
  rw [cell?_erase, if_neg out]

/-- **The reserved row gets what is aimed at it.** -/
theorem cell?_wipe_last {s : Screen cols rows} (reserved : s.hasStatus = true) (attrs : Attrs)
    (w : Wipe) (x : Nat) {y : Nat} (last : y + 1 = rows) :
    (s.wipe attrs w).cell? x y =
      if w.aim x y then (s.cell? x y).map fun _ => .blank attrs else s.cell? x y := by
  have spare : s.lines < rows := lines_lt reserved
  cases w with
  | lineFrom | lineTo | line => exact cell?_erase ..
  | page => exact cell?_erase_of_spares s (Region.spares_page spare) attrs x last
  | below x₀ y₀ => exact cell?_erase_of_spares s (Region.spares_below spare x₀ y₀) attrs x last
  | above x₀ y₀ =>
    have some_line : 0 < s.lines := s.lines_pos (Nat.zero_lt_of_lt spare)
    exact cell?_erase_of_spares s (Region.spares_above some_line spare x₀ y₀) attrs x last
  | scrollUp n =>
    have past : s.lines ≤ y := by
      have := lines_add_one reserved
      omega
    exact (cell?_scrollUp s n attrs x y).trans (if_pos past)

/-! ## Any number of them -/

theorem wipeAll_concat (s : Screen cols rows) (wipes : List (Wipe × Attrs)) (w : Wipe × Attrs) :
    s.wipeAll (wipes ++ [w]) = (s.wipeAll wipes).wipe w.2 w.1 :=
  List.foldl_append

theorem hasStatus_wipeAll (s : Screen cols rows) (wipes : List (Wipe × Attrs)) :
    (s.wipeAll wipes).hasStatus = s.hasStatus := by
  induction wipes generalizing s with
  | nil => rfl
  | cons w rest ih => exact (ih (s.wipe w.2 w.1)).trans (hasStatus_wipe ..)

/-- **The last wipe that was aimed at a cell of the reserved row decides what it shows.** -/
theorem cell?_wipeAll_last {s : Screen cols rows} (reserved : s.hasStatus = true)
    (wipes : List (Wipe × Attrs)) (x : Nat) {y : Nat} (last : y + 1 = rows) :
    (s.wipeAll wipes).cell? x y =
      match wipes.reverse.find? fun w => w.1.aim x y with
      | some w => (s.cell? x y).map fun _ => .blank w.2
      | none => s.cell? x y := by
  -- from the right, so that the step is the latest wipe
  induction wipes using List.reverseRecOn with
  | nil => rfl
  | append_singleton wipes w ih =>
    have still : (s.wipeAll wipes).hasStatus = true := (hasStatus_wipeAll s wipes).trans reserved
    rw [wipeAll_concat, cell?_wipe_last still w.2 w.1 x last, ih, List.reverse_append,
      List.reverse_singleton, List.singleton_append, List.find?_cons]
    cases aimed : w.1.aim x y with
    | false => rw [if_neg Bool.false_ne_true]
    | true =>
      rw [if_pos rfl]
      cases wipes.reverse.find? fun w => w.1.aim x y with
      | none => rfl
      | some w' => exact Option.map_map ..

/-- **The reserved row is blanked where it is aimed at, and out of reach otherwise.** Clearing
the page, erasing above or below any cell and scrolling by any number of rows leave it as it
is, and so does the erasure of another line. The erasure of this line blanks the cells that it
names, and leaves the others. Of many wipes the last one aimed at a cell decides, and if there was
none the cell is what it was. The row stays reserved. -/
theorem reserved_row_wiped_when_aimed_at {s : Screen cols rows} (reserved : s.hasStatus = true) :
    (∀ w attrs x, (s.wipe attrs w).cell? x (rows - 1) =
      if w.aim x (rows - 1) then (s.cell? x (rows - 1)).map fun _ => .blank attrs
      else s.cell? x (rows - 1)) ∧
    ∀ wipes : List (Wipe × Attrs),
      (s.wipeAll wipes).hasStatus = true ∧
      (∀ x, (s.wipeAll wipes).cell? x (rows - 1) =
        match wipes.reverse.find? fun w => w.1.aim x (rows - 1) with
        | some w => (s.cell? x (rows - 1)).map fun _ => .blank w.2
        | none => s.cell? x (rows - 1)) ∧
      ((∀ w ∈ wipes, ∀ x < cols, w.1.aim x (rows - 1) = false) →
        ∀ x, (s.wipeAll wipes).cell? x (rows - 1) = s.cell? x (rows - 1)) := by
  have spare := s.one_lt_rows reserved
  have last : rows - 1 + 1 = rows := by omega
  refine ⟨fun w attrs x => cell?_wipe_last reserved attrs w x last, fun wipes =>
    ⟨(hasStatus_wipeAll s wipes).trans reserved,
      fun x => cell?_wipeAll_last reserved wipes x last, fun elsewhere x => ?_⟩⟩
  by_cases hx : x < cols
  · have unaimed : wipes.reverse.find? (fun w => w.1.aim x (rows - 1)) = none := by
      rw [List.find?_eq_none]
      intro w member
      exact Bool.eq_false_iff.1 (elsewhere w (List.mem_reverse.1 member) x hx)
    rw [cell?_wipeAll_last reserved wipes x last, unaimed]
  · rw [(cell?_eq_none_iff ..).2 fun there => hx there.1,
      (cell?_eq_none_iff ..).2 fun there => hx there.1]

/-- The first column of the status line is erased in one color and then the line from the second
column on in another; what is done to the page after that does not show. -/
theorem reserved_row_wiped_twice :
    let s := ((blank 3 3 ⟨.white, .black⟩).setStatus true ⟨.black, .white⟩).writeStatus [0x4C]
      [0x39] ⟨.black, .white⟩
    let wipes : List (Wipe × Attrs) := [(.lineTo 0 2, ⟨.red, .blue⟩), (.page, ⟨.red, .red⟩),
      (.lineFrom 1 2, ⟨.red, .green⟩), (.below 0 2, ⟨.red, .red⟩), (.above 2 9, ⟨.red, .red⟩),
      (.line 1, ⟨.red, .red⟩), (.scrollUp 7, ⟨.red, .red⟩)]
    s.hasStatus = true ∧
      (s.wipeAll wipes).cell? 0 2 = some (.blank ⟨.red, .blue⟩) ∧
      (s.wipeAll wipes).cell? 2 2 = some (.blank ⟨.red, .green⟩) ∧
      (s.wipeAll wipes.tail.tail.tail).cell? 2 2 = some (.ofCode 0x39 ⟨.black, .white⟩) := by
  intro s wipes
  have reserved : s.hasStatus = true := by decide +kernel
  have runs := (reserved_row_wiped_when_aimed_at reserved).2
  have elsewhere : ∀ w ∈ wipes.tail.tail.tail, ∀ x < 3, w.1.aim x 2 = false := by
    decide
  refine ⟨reserved, ((runs wipes).2.1 0).trans ?_, ((runs wipes).2.1 2).trans ?_,
    ((runs wipes.tail.tail.tail).2.2 elsewhere 2).trans ?_⟩ <;> decide +kernel

/-- **A line erased by its number is erased, reserved or not.** Each of the three erasures of a
line takes the mode off the status line. -/
theorem reserved_row_wiped_by_line :
    let s := ((blank 4 3 ⟨.white, .semiBlue⟩).setStatus true ⟨.white, .semiBlue⟩).writeStatus
      [0x4C] [0x39] ⟨.black, .lightGray⟩
    s.hasStatus = true ∧ s.cell? 0 2 = some (.ofCode 0x4C ⟨.black, .lightGray⟩) ∧
      ∀ w ∈ [Wipe.line 2, .lineFrom 0 2, .lineTo 0 2],
        (s.wipe ⟨.red, .black⟩ w).cell? 0 2 = some (.blank ⟨.red, .black⟩) := by
  intro s
  have erased : ∀ w ∈ [Wipe.line 2, .lineFrom 0 2, .lineTo 0 2],
      (s.wipe ⟨.red, .black⟩ w).cell? 0 2 = some (.blank ⟨.red, .black⟩) := by
    simp only [List.forall_mem_cons]
    decide +kernel
  exact ⟨by decide +kernel, by decide +kernel, erased⟩

end Screen

end SerialTerminal
