/-
Moving the cursor.

The five sequences that move the cursor stop it at the edges of the addressable cells. How far
it is to go, or where, is a decimal number of any length, and the parser keeps no more of it
than 65535. **On a grid of at most 65535 columns and rows that cannot be noticed**: a motion
that is cut off at the limit has reached the edge before. So the cursor goes where the number
that was sent takes it, and not some smaller one (`motion_clamps`).

The bound is sharp for the cursor address, whose limit is the last column of such a grid.
-/
import SerialTerminal.Proofs.Terminal.Sequence

set_option autoImplicit false

namespace SerialTerminal

namespace Terminal

variable {cols rows : Nat} {t : Terminal cols rows}

section Sequences

variable {body : List UInt8}

/-- A command that changes the cursor and nothing else. -/
theorem yields_motion {final : UInt8} {command : Command} {cursor : Cursor}
    (placed : t.MarkerPlaced) (ground : t.parser = .ground) (hbody : Csi.IsBody body)
    (hfinal : 0x40 ≤ final ∧ final ≤ 0x7D)
    (asks : (Csi.ofBytes body final).command? = some command)
    (moved : t.lift.run command = { t.lift with cursor }) :
    t.Yields (Csi.bytes body final) t.cell? cursor :=
  yields_of_command placed ground hbody hfinal asks t.hasStatus_screen_lift moved
    t.cell?_screen_lift

/-- A number that stops at the limit is the number itself, or greater than any coordinate. -/
theorem paramOr_cases (body : List UInt8) (final : UInt8) :
    (Csi.ofBytes body final).paramOr 0 1 = max (Csi.value body 0) 1 ∨
      65535 ≤ (Csi.ofBytes body final).paramOr 0 1 ∧ 65535 ≤ max (Csi.value body 0) 1 := by
  have limit : Csi.paramLimit = 65535 := rfl
  rw [Csi.paramOr_ofBytes body final (by decide)]
  omega

theorem yields_up (high : rows ≤ 65535) (bounds : t.InBounds) (placed : t.MarkerPlaced)
    (ground : t.parser = .ground) (hbody : Csi.IsBody body) :
    t.Yields (Csi.bytes body 0x41) t.cell?
      ⟨t.cursor.x, t.cursor.y - max (Csi.value body 0) 1⟩ := by
  apply yields_motion placed ground hbody (by decide) rfl
  have below : t.cursor.y < rows := Nat.lt_of_lt_of_le bounds.cursor_y t.screen.lines_le
  have stop : t.cursor.y - (Csi.ofBytes body 0x41).paramOr 0 1 =
      t.cursor.y - max (Csi.value body 0) 1 := by
    rcases paramOr_cases body 0x41 with same | ⟨far, far'⟩
    · rw [same]
    · omega
  rw [← stop]
  rfl

theorem yields_down (high : rows ≤ 65535) (bounds : t.InBounds) (placed : t.MarkerPlaced)
    (ground : t.parser = .ground) (hbody : Csi.IsBody body) :
    t.Yields (Csi.bytes body 0x42) t.cell?
      ⟨t.cursor.x, min (t.lines - 1) (t.cursor.y + max (Csi.value body 0) 1)⟩ := by
  apply yields_motion placed ground hbody (by decide) rfl
  have inside : t.cursor.x = min t.cursor.x (cols - 1) := by
    have column := bounds.cursor_x
    omega
  have stop : min (t.cursor.y + (Csi.ofBytes body 0x42).paramOr 0 1) (t.lift.lines - 1) =
      min (t.lines - 1) (t.cursor.y + max (Csi.value body 0) 1) := by
    have le : t.lines ≤ rows := t.screen.lines_le
    rw [lines_lift]
    rcases paramOr_cases body 0x42 with same | ⟨far, far'⟩
    · rw [same, Nat.min_comm]
    · omega
  rw [← stop]
  nth_rewrite 1 [inside]
  rfl

theorem yields_right (wide : cols ≤ 65535) (bounds : t.InBounds) (placed : t.MarkerPlaced)
    (ground : t.parser = .ground) (hbody : Csi.IsBody body) :
    t.Yields (Csi.bytes body 0x43) t.cell?
      ⟨min (cols - 1) (t.cursor.x + max (Csi.value body 0) 1), t.cursor.y⟩ := by
  apply yields_motion placed ground hbody (by decide) rfl
  have inside : t.cursor.y = min t.cursor.y (t.lift.lines - 1) := by
    have row := bounds.cursor_y
    rw [lines_lift]
    omega
  have stop : min (t.cursor.x + (Csi.ofBytes body 0x43).paramOr 0 1) (cols - 1) =
      min (cols - 1) (t.cursor.x + max (Csi.value body 0) 1) := by
    rcases paramOr_cases body 0x43 with same | ⟨far, far'⟩
    · rw [same, Nat.min_comm]
    · omega
  rw [← stop]
  nth_rewrite 1 [inside]
  rfl

theorem yields_left (wide : cols ≤ 65535) (bounds : t.InBounds) (placed : t.MarkerPlaced)
    (ground : t.parser = .ground) (hbody : Csi.IsBody body) :
    t.Yields (Csi.bytes body 0x44) t.cell?
      ⟨t.cursor.x - max (Csi.value body 0) 1, t.cursor.y⟩ := by
  apply yields_motion placed ground hbody (by decide) rfl
  have column := bounds.cursor_x
  have stop : t.cursor.x - (Csi.ofBytes body 0x44).paramOr 0 1 =
      t.cursor.x - max (Csi.value body 0) 1 := by
    rcases paramOr_cases body 0x44 with same | ⟨far, far'⟩
    · rw [same]
    · omega
  rw [← stop]
  rfl

/-- Column and row are counted from one, and zero stands for one. -/
theorem yields_address (wide : cols ≤ 65535) (high : rows ≤ 65535) (placed : t.MarkerPlaced)
    (ground : t.parser = .ground) (hbody : Csi.IsBody body) :
    t.Yields (Csi.bytes body 0x48) t.cell?
      ⟨min (cols - 1) (max (Csi.value body 0) 1 - 1),
        min (t.lines - 1) (max (Csi.value body 1) 1 - 1)⟩ := by
  apply yields_motion placed ground hbody (by decide) rfl
  have limit : Csi.paramLimit = 65535 := rfl
  have le : t.lines ≤ rows := t.screen.lines_le
  have column : min ((Csi.ofBytes body 0x48).param 0 - 1) (cols - 1) =
      min (cols - 1) (max (Csi.value body 0) 1 - 1) := by
    rw [Csi.param_ofBytes body 0x48 (by decide)]
    omega
  have row : min ((Csi.ofBytes body 0x48).param 1 - 1) (t.lift.lines - 1) =
      min (t.lines - 1) (max (Csi.value body 1) 1 - 1) := by
    rw [Csi.param_ofBytes body 0x48 (by decide), lines_lift]
    omega
  rw [← column, ← row]
  rfl

end Sequences

/-- **Motion is clamping, with the numbers as they are sent.** A terminal outside any sequence
is sent one that moves the cursor, with decimal numbers of any length, where zero or no digit at
all stands for one. The cursor goes as far up, down, right or left, or to the column and row
with these numbers, or as near to that as the addressable cells allow. Nothing else happens: no
cell, color or saved position changes, and the page does not move. -/
theorem motion_clamps (hc : 0 < cols) (hr : 0 < rows) (wide : cols ≤ 65535) (high : rows ≤ 65535)
    {t : Terminal cols rows} (h : t.Reachable) (ground : t.parser = .ground) {d e : List UInt8}
    (hd : Csi.IsNumeral d) (he : Csi.IsNumeral e) :
    let x := t.cursor.x
    let y := t.cursor.y
    let n := max (Csi.decimal d) 1
    let m := max (Csi.decimal e) 1
    t.Yields (Csi.bytes d 0x41) t.cell? ⟨x, y - n⟩ ∧
    t.Yields (Csi.bytes d 0x42) t.cell? ⟨x, min (t.lines - 1) (y + n)⟩ ∧
    t.Yields (Csi.bytes d 0x43) t.cell? ⟨min (cols - 1) (x + n), y⟩ ∧
    t.Yields (Csi.bytes d 0x44) t.cell? ⟨x - n, y⟩ ∧
    t.Yields (Csi.bytes (d ++ Parser.semicolon :: e) 0x48) t.cell?
      ⟨min (cols - 1) (n - 1), min (t.lines - 1) (m - 1)⟩ := by
  intro x y n m
  have bounds := h.inBounds hc hr
  have placed := h.markerPlaced
  have address := yields_address wide high placed ground (Csi.isBody_pair hd he)
  rw [Csi.value_pair_zero hd e, Csi.value_pair_one hd he] at address
  have up := yields_up high bounds placed ground hd.isBody
  have down := yields_down high bounds placed ground hd.isBody
  have right := yields_right wide bounds placed ground hd.isBody
  have left := yields_left wide bounds placed ground hd.isBody
  rw [hd.value_eq] at up down right left
  exact ⟨up, down, right, left, address⟩

/-- On a grid with a status row and a visible cursor at its third column: numbers past the limit
lead to the edges, a zero with many digits moves by one, and no digits do so too. -/
theorem motion_clamps_past_the_limit :
    let t := ((create 5 4 {}).operateAll [.banner, .print [0x41, 0x42]] (⟨0⟩ : Bell.Tally)).1
    let huge : List UInt8 := [0x31, 0x30, 0x30, 0x30, 0x30, 0x30, 0x30, 0x31]
    let zero : List UInt8 := [0x30, 0x30, 0x30, 0x30, 0x30, 0x30, 0x30, 0x30, 0x30]
    (t.Reachable ∧ t.parser = .ground ∧ t.cursor = ⟨2, 2⟩) ∧
      Csi.IsNumeral huge ∧ Csi.IsNumeral zero ∧ Csi.IsNumeral [] ∧
      t.Yields (Csi.bytes huge 0x41) t.cell? ⟨2, 0⟩ ∧
      t.Yields (Csi.bytes zero 0x44) t.cell? ⟨1, 2⟩ ∧
      t.Yields (Csi.bytes (huge ++ Parser.semicolon :: []) 0x48) t.cell? ⟨4, 0⟩ := by
  intro t huge zero
  have reached : t.Reachable := (Reachable.create _).operateAll _ _
  have ground : t.parser = .ground := by decide +kernel
  have cursor : t.cursor = ⟨2, 2⟩ := by decide +kernel
  have hhuge : Csi.IsNumeral huge := by decide
  have hzero : Csi.IsNumeral zero := by decide
  have hnone : Csi.IsNumeral [] := by decide
  obtain ⟨up, -, -, -, address⟩ := motion_clamps (by decide) (by decide) (by decide) (by decide)
    reached ground hhuge hnone
  obtain ⟨-, -, -, left, -⟩ := motion_clamps (by decide) (by decide) (by decide) (by decide)
    reached ground hzero hnone
  have number : Csi.decimal huge = 10000001 := by decide +kernel
  have least : max (Csi.decimal zero) 1 = 1 := by decide +kernel
  refine ⟨⟨reached, ground, cursor⟩, hhuge, hzero, hnone, ?_, ?_, ?_⟩
  · rw [cursor, number] at up
    exact up
  · rw [cursor, least] at left
    exact left
  · rw [number] at address
    exact address

end Terminal

end SerialTerminal
