/-
The host and the status row do not meet.

Two facts are meant by that: no byte changes the status row, and what a byte does does
not depend on it. One equation gives both. **Filling the last row before a byte is the
same as filling it afterwards** (`receive_setLastRow`): for the row that is there already
it says that the row stays, and for the row of a status line it says that drawing the line
and receiving bytes can change places.

The equation holds while the cursor is above the reserved row, as it always is
(`AboveStatus`). Of the functions that write cells, those for one cell or one line
take their row from the cursor, and those for the whole page stop at `lines`. The
marker is laid over the cursor's cell, so it keeps away from the last row as well.
-/
import SerialTerminal.Proofs.Screen.StatusRow
import SerialTerminal.Proofs.Terminal.Bounds
import SerialTerminal.Proofs.Terminal.Setup
import SerialTerminal.Proofs.Terminal.Transparency

set_option autoImplicit false

namespace SerialTerminal

namespace Terminal

variable {β : Type} [Bell β] {cols rows : Nat}

/-! ## The cursor above the status row -/

/-- The last row is reserved and the positions are in bounds. -/
structure AboveStatus (t : Terminal cols rows) : Prop where
  reserved : t.screen.hasStatus = true
  inBounds : t.InBounds

namespace AboveStatus

variable {t : Terminal cols rows}

/-- The cursor is not in the last row. -/
theorem cursor_ne (h : t.AboveStatus) : t.cursor.y + 1 ≠ rows := by
  have below : t.cursor.y < t.screen.lines := h.inBounds.cursor_y
  have hlines := Screen.lines_add_one h.reserved
  omega

theorem of_setup {u : Terminal cols rows} (h : t.AboveStatus) (hu : u.InBounds)
    (same : u.setup = t.setup) : u.AboveStatus where
  reserved := (congrArg Setup.statusLine same).trans h.reserved
  inBounds := hu

theorem lift (h : t.AboveStatus) : t.lift.AboveStatus :=
  h.of_setup h.inBounds.lift t.setup_lift

theorem receive (h : t.AboveStatus) (b : UInt8) : (t.receive b).AboveStatus :=
  h.of_setup (h.inBounds.receive b) (t.setup_receive b)

end AboveStatus

/-! ## Filling the last row before and after -/

/-- The terminal with the cells of its last row replaced. -/
def setLastRow (t : Terminal cols rows) (row : Nat → Glyph) : Terminal cols rows :=
  { t with screen := t.screen.setLastRow row }

section Comm

variable {t : Terminal cols rows} (row : Nat → Glyph)

theorem clearPage_setLastRow (reserved : t.screen.hasStatus = true) (attrs : Attrs) :
    (t.setLastRow row).clearPage attrs = (t.clearPage attrs).setLastRow row := by
  simp only [clearPage, setLastRow, Screen.clear_setLastRow reserved]

theorem lineFeed_setLastRow (reserved : t.screen.hasStatus = true) :
    (t.setLastRow row).lineFeed = t.lineFeed.setLastRow row := by
  have scrolled := Screen.scrollUp_setLastRow reserved row 1 t.attrs
  by_cases room : t.cursor.y + 1 < t.lines
  · have room' : (t.setLastRow row).cursor.y + 1 < (t.setLastRow row).lines := room
    rw [lineFeed, if_pos room', lineFeed, if_pos room]
    rfl
  · have room' : ¬ (t.setLastRow row).cursor.y + 1 < (t.setLastRow row).lines := room
    rw [lineFeed, if_neg room', lineFeed, if_neg room]
    exact Terminal.ext scrolled rfl rfl rfl rfl rfl rfl rfl

theorem putChar_setLastRow (h : t.AboveStatus) (code : UInt8) :
    (t.setLastRow row).putChar code = (t.putChar code).setLastRow row := by
  have drawn : (t.setLastRow row).screen.put t.cursor.x t.cursor.y (.ofCode code t.attrs) =
      (t.screen.put t.cursor.x t.cursor.y (.ofCode code t.attrs)).setLastRow row :=
    Screen.put_setLastRow t.screen row h.cursor_ne ..
  have reserved : (t.screen.put t.cursor.x t.cursor.y (.ofCode code t.attrs)).hasStatus = true := by
    rw [Screen.hasStatus_put]
    exact h.reserved
  simp only [putChar, apply_ite (setLastRow · row)]
  rw [← lineFeed_setLastRow row]
  · simp only [setLastRow, carriageReturn] at drawn ⊢
    rw [drawn]
    rfl
  · exact reserved

theorem backspace_setLastRow (h : t.AboveStatus) :
    (t.setLastRow row).backspace = t.backspace.setLastRow row := by
  have blanked := Screen.put_setLastRow t.screen row h.cursor_ne (t.cursor.x - 1) (.blank t.attrs)
  simp only [backspace, apply_ite (setLastRow · row)]
  simp only [setLastRow, blanked]

theorem tab_setLastRow : (t.setLastRow row).tab = t.tab.setLastRow row := by
  simp only [tab, apply_ite (setLastRow · row)]
  rfl

theorem control_setLastRow (h : t.AboveStatus) (c : Control) :
    (t.setLastRow row).control c = (t.control c).setLastRow row := by
  cases c with
  | bell => rfl
  | backspace => exact backspace_setLastRow row h
  | tab => exact tab_setLastRow row
  | carriageReturn =>
    have reserved : t.carriageReturn.screen.hasStatus = true := h.reserved
    simp only [control, apply_ite (setLastRow · row)]
    rw [← lineFeed_setLastRow row reserved]
    rfl
  | lineFeed =>
    simp only [control, apply_ite (setLastRow · row), lineFeed_setLastRow row h.reserved]
    rfl
  | formFeed => exact clearPage_setLastRow row h.reserved t.attrs

theorem render_setLastRow (r : Rendition) :
    (t.setLastRow row).render r = (t.render r).setLastRow row := by
  cases r <;> rfl

theorem eraseLine_setLastRow (h : t.AboveStatus) (extent : Extent) :
    (t.setLastRow row).eraseLine extent = (t.eraseLine extent).setLastRow row := by
  have above := h.cursor_ne
  cases extent with
  | toEnd => simp only [eraseLine, setLastRow, Screen.eraseLineFrom_setLastRow _ row above]
  | toStart => simp only [eraseLine, setLastRow, Screen.eraseLineTo_setLastRow _ row above]
  | whole => simp only [eraseLine, setLastRow, Screen.eraseLine_setLastRow _ row above]

theorem erasePage_setLastRow (reserved : t.screen.hasStatus = true) (extent : Extent) :
    (t.setLastRow row).erasePage extent = (t.erasePage extent).setLastRow row := by
  cases extent with
  | toEnd => simp only [erasePage, setLastRow, Screen.eraseBelow_setLastRow reserved]
  | toStart => simp only [erasePage, setLastRow, Screen.eraseAbove_setLastRow reserved]
  | whole => exact clearPage_setLastRow row reserved t.attrs

theorem run_setLastRow (h : t.AboveStatus) (c : Command) :
    (t.setLastRow row).run c = (t.run c).setLastRow row := by
  cases c with
  | eraseLine extent => exact eraseLine_setLastRow row h extent
  | erasePage extent => exact erasePage_setLastRow row h.reserved extent
  | scrollUp n => simp only [run, setLastRow, Screen.scrollUp_setLastRow h.reserved]
  | render r => exact render_setLastRow row r
  -- the others move the cursor, or touch neither it nor a cell
  | _ => rfl

theorem perform_setLastRow (h : t.AboveStatus) (a : Action) :
    (t.setLastRow row).perform a = (t.perform a).setLastRow row := by
  cases a with
  | none => rfl
  | print code => exact putChar_setLastRow row h code
  | control b =>
    rw [perform, perform]
    cases Control.ofByte? b with
    | none => rfl
    | some c => exact control_setLastRow row h c
  | csi c =>
    rw [perform, perform]
    cases c.command? with
    | none => rfl
    | some command => exact run_setLastRow row h command

theorem interpret_setLastRow (h : t.AboveStatus) (b : UInt8) :
    (t.setLastRow row).interpret b = (t.interpret b).setLastRow row := by
  have fed : { t with parser := (t.parser.feed b).1 }.AboveStatus :=
    h.of_setup (h.inBounds.congr rfl rfl rfl) rfl
  exact perform_setLastRow row fed (t.parser.feed b).2

/-! ## With the marker -/

/-- A byte leaves alone what the marker covers. -/
theorem under_interpret (t : Terminal cols rows) (b : UInt8) :
    (t.interpret b).marker.under = t.marker.under := by
  obtain ⟨visible, same⟩ := markerBlind_interpret b t t.marker
  exact congrArg (·.marker.under) same

theorem lift_setLastRow (above : ∀ pos code, t.marker.under = some (pos, code) → pos.y + 1 ≠ rows) :
    (t.setLastRow row).lift = t.lift.setLastRow row := by
  rcases hu : t.marker.under with _ | ⟨pos, code⟩
  · simp only [lift, setLastRow, Marker.lift, hu]
  · simp only [lift, setLastRow, Marker.lift, hu,
      Screen.setCode_setLastRow _ row (above pos code hu)]

theorem place_setLastRow (above : t.cursor.y + 1 ≠ rows) (none : t.marker.under = none) :
    (t.setLastRow row).place = t.place.setLastRow row := by
  have seen : (t.screen.setLastRow row).cell? t.cursor.x t.cursor.y =
      t.screen.cell? t.cursor.x t.cursor.y := by
    rw [Screen.cell?_setLastRow, if_neg above]
  have marked := Screen.setCode_setLastRow t.screen row above t.cursor.x Marker.code
  simp only [place, setLastRow, Marker.place, Marker.lift, none, seen]
  split
  · split
    · rw [marked]
    · rfl
  · rfl

end Comm

/-- What the marker covers is where the cursor is. -/
theorem MarkerPlaced.eq_cursor {t : Terminal cols rows} (h : t.MarkerPlaced) {pos : Cursor}
    {code : UInt8} (hu : t.marker.under = some (pos, code)) : pos = t.cursor := by
  rw [h.under_eq] at hu
  split at hu
  · obtain ⟨g, -, same⟩ := Option.map_eq_some_iff.1 hu
    exact (Prod.mk.inj same).1.symm
  · exact absurd hu nofun

/-- **With the markers in their places, terminals that agree and both show the cursor or
both hide it are the same.** -/
theorem MarkerPlaced.eq_of_agrees {t u : Terminal cols rows} (ht : t.MarkerPlaced)
    (hu : u.MarkerPlaced) (agree : t.Agrees u) (visible : t.cursorVisible = u.cursorVisible) :
    t = u := by
  have hscreen : t.screen = u.screen := by
    refine Screen.ext_cell? (fun x y => ?_) agree.hasStatus_eq
    rw [ht.showsView, hu.showsView, agree.cell?_eq, agree.cursor_eq, visible]
  have hunder : t.marker.under = u.marker.under := by
    rw [ht.under_eq, hu.under_eq, agree.cell?_eq, agree.cursor_eq, visible]
  have hmarker : t.marker = u.marker := by
    change Marker.mk t.cursorVisible t.marker.under = Marker.mk u.cursorVisible u.marker.under
    rw [visible, hunder]
  exact Terminal.ext hscreen agree.cursor_eq agree.saved_eq agree.attrs_eq agree.colors_eq
    agree.policy_eq agree.parser_eq hmarker

/-- A marker in its place may be lifted and laid down again. -/
theorem MarkerPlaced.place_lift {t : Terminal cols rows} (h : t.MarkerPlaced) :
    t.lift.place = t := by
  have view : ∀ x y, t.lift.place.cell? x y = t.cell? x y := by
    intro x y
    rw [cell?_place, cell?_of_under_eq_none t.under_marker_lift, cell?_screen_lift]
  have status : t.lift.place.screen.hasStatus = t.screen.hasStatus := by
    rw [hasStatus_screen_place, hasStatus_screen_lift]
  apply (markerPlaced_place t.lift).eq_of_agrees h
  · exact ⟨view, rfl, rfl, rfl, rfl, rfl, rfl, status⟩
  · rw [cursorVisible_place, cursorVisible_lift]

section Placed

variable {t : Terminal cols rows}

/-- **The last row may be filled before a byte or after it.** -/
theorem receive_setLastRow (row : Nat → Glyph) (placed : t.MarkerPlaced) (h : t.AboveStatus)
    (b : UInt8) : (t.setLastRow row).receive b = (t.receive b).setLastRow row := by
  have lifted : (t.setLastRow row).lift = t.lift.setLastRow row := by
    apply lift_setLastRow
    intro pos code hu
    rw [placed.eq_cursor hu]
    exact h.cursor_ne
  have interpreted : (t.lift.interpret b).AboveStatus :=
    h.lift.of_setup (h.lift.inBounds.interpret b) (setup_interpret _ b)
  have bareStill : (t.lift.interpret b).marker.under = none := by
    rw [under_interpret, under_marker_lift]
  calc (t.setLastRow row).receive b
      = ((t.lift.setLastRow row).interpret b).place := by rw [receive, edit, lifted]
    _ = ((t.lift.interpret b).setLastRow row).place := by rw [interpret_setLastRow row h.lift]
    _ = (t.receive b).setLastRow row := place_setLastRow row interpreted.cursor_ne bareStill

theorem print_setLastRow (row : Nat → Glyph) (placed : t.MarkerPlaced) (h : t.AboveStatus)
    (bytes : List UInt8) (bell : β) :
    (t.setLastRow row).print bytes bell =
      ((t.print bytes bell).1.setLastRow row, (t.print bytes bell).2) := by
  induction bytes generalizing t bell with
  | nil => rfl
  | cons b bytes ih =>
    have received := receive_setLastRow row placed h b
    have rung : (t.setLastRow row).rings b = t.rings b := rfl
    rw [print, handle, received, rung]
    exact ih (markerPlaced_place _) (h.receive b) _

/-- Drawing the status line fills the last row while the marker is off the screen. -/
theorem writeStatus_eq_place (reserved : t.screen.hasStatus = true) (left right : List UInt8) :
    t.writeStatus left right =
      (t.lift.setLastRow (Screen.statusGlyph cols left right t.colors.status)).place := by
  have lifted : t.lift.screen.hasStatus = true := by
    rw [hasStatus_screen_lift]
    exact reserved
  have drawn := Screen.writeStatus_eq lifted left right t.colors.status
  rw [writeStatus, editScreen, edit, drawn]
  rfl

end Placed

/-! ## Reachable terminals -/

theorem setLastRow_setLastRow (t : Terminal cols rows) (row other : Nat → Glyph) :
    (t.setLastRow row).setLastRow other = t.setLastRow other := by
  rw [setLastRow, setLastRow, Screen.setLastRow_setLastRow]
  rfl

theorem setLastRow_of_no_cols (t : Terminal 0 rows) (row : Nat → Glyph) :
    t.setLastRow row = t := by
  rw [setLastRow, Screen.setLastRow_of_no_cols]

/-- Filling the last row with what it shows changes nothing, and only that. -/
theorem setLastRow_eq_self_iff (t : Terminal cols rows) (row : Nat → Glyph) :
    t.setLastRow row = t ↔
      ∀ x y g, y + 1 = rows → t.screen.cell? x y = some g → g = row x := by
  rw [← Screen.setLastRow_eq_self_iff]
  constructor
  · intro same
    exact congrArg Terminal.screen same
  · intro same
    rw [setLastRow, same]

namespace Reachable

variable {t : Terminal cols rows}

theorem aboveStatus (h : t.Reachable) (hc : 0 < cols) (reserved : t.screen.hasStatus = true) :
    t.AboveStatus where
  reserved := reserved
  inBounds := h.inBounds hc (Nat.zero_lt_of_lt (t.screen.one_lt_rows reserved))

theorem print_setLastRow (h : t.Reachable) (reserved : t.screen.hasStatus = true)
    (row : Nat → Glyph) (bytes : List UInt8) (bell : β) :
    (t.setLastRow row).print bytes bell =
      ((t.print bytes bell).1.setLastRow row, (t.print bytes bell).2) := by
  rcases Nat.eq_zero_or_pos cols with rfl | hc
  -- without columns there is no cell, and so nothing to fill
  · rw [setLastRow_of_no_cols, setLastRow_of_no_cols]
  · exact Terminal.print_setLastRow row h.markerPlaced (h.aboveStatus hc reserved) bytes bell

/-- **Drawing the status line fills the last row and does nothing else.** -/
theorem writeStatus_eq (h : t.Reachable) (reserved : t.screen.hasStatus = true)
    (left right : List UInt8) :
    t.writeStatus left right =
      t.setLastRow (Screen.statusGlyph cols left right t.colors.status) := by
  rw [writeStatus_eq_place reserved]
  rcases Nat.eq_zero_or_pos cols with rfl | hc
  · rw [setLastRow_of_no_cols, setLastRow_of_no_cols, h.markerPlaced.place_lift]
  · have above := h.aboveStatus hc reserved
    rw [place_setLastRow _ above.lift.cursor_ne t.under_marker_lift, h.markerPlaced.place_lift]

/-- Without a status row there is no status line to draw. -/
theorem writeStatus_eq_self (h : t.Reachable) (released : t.screen.hasStatus = false)
    (left right : List UInt8) : t.writeStatus left right = t := by
  have lifted : ¬ t.lift.screen.hasStatus = true := by
    rw [hasStatus_screen_lift, released]
    exact Bool.false_ne_true
  have undrawn : t.lift.screen.writeStatus left right t.colors.status = t.lift.screen :=
    if_neg lifted
  rw [writeStatus, editScreen, edit, undrawn]
  exact h.markerPlaced.place_lift

/-- In the last row the screen shows the logical view: the marker is elsewhere. -/
theorem cell?_last_row (h : t.Reachable) (reserved : t.screen.hasStatus = true) (x : Nat) :
    t.screen.cell? x (rows - 1) = t.cell? x (rows - 1) := by
  rw [h.markerPlaced.showsView]
  cases hg : t.cell? x (rows - 1) with
  | none => rfl
  | some g =>
    have there : (t.screen.cell? x (rows - 1)).isSome := by
      rw [← Option.isSome_map, ← cell?, hg, Option.isSome_some]
    have hc : 0 < cols := Nat.zero_lt_of_lt ((Screen.isSome_cell? ..).1 there).1
    have apart : ¬ (t.cursorVisible = true ∧ t.cursor = ⟨x, rows - 1⟩) := by
      rintro ⟨-, here⟩
      have above := (h.aboveStatus hc reserved).cursor_ne
      have spare := t.screen.one_lt_rows reserved
      rw [here] at above
      exact above (Nat.sub_add_cancel (Nat.le_of_lt spare))
    rw [Option.map_some, if_neg apart]

/-- Bytes leave the last row as it is displayed. -/
theorem screen_print_last_row (h : t.Reachable) (reserved : t.screen.hasStatus = true)
    (bytes : List UInt8) (bell : β) (x : Nat) :
    (t.print bytes bell).1.screen.cell? x (rows - 1) = t.screen.cell? x (rows - 1) := by
  have spare := t.screen.one_lt_rows reserved
  have last : rows - 1 + 1 = rows := Nat.sub_add_cancel (Nat.le_of_lt spare)
  let row : Nat → Glyph := fun x => (t.screen.cell? x (rows - 1)).getD default
  have shown : t.setLastRow row = t := by
    rw [setLastRow_eq_self_iff]
    intro x y g hy hg
    obtain rfl : rows - 1 = y := by omega
    change g = (t.screen.cell? x (rows - 1)).getD default
    rw [hg, Option.getD_some]
  -- filled with the row it shows before the bytes, it shows this row after them
  have kept : (t.print bytes bell).1.setLastRow row = (t.print bytes bell).1 := by
    have comm := h.print_setLastRow reserved row bytes bell
    rw [shown] at comm
    exact congrArg Prod.fst comm.symm
  cases hg : t.screen.cell? x (rows - 1) with
  | none =>
    rw [Screen.cell?_eq_none_iff] at hg ⊢
    exact hg
  | some g =>
    have there : ((t.print bytes bell).1.screen.cell? x (rows - 1)).isSome := by
      rw [Screen.isSome_cell?, ← Screen.isSome_cell? t.screen, hg, Option.isSome_some]
    obtain ⟨g', hg'⟩ := Option.isSome_iff_exists.1 there
    have same : g' = (t.screen.cell? x (rows - 1)).getD default :=
      (setLastRow_eq_self_iff _ row).1 kept x (rows - 1) g' last hg'
    rw [hg', same, hg, Option.getD_some]

/-- And as it is written. -/
theorem cell?_print_last_row (h : t.Reachable) (reserved : t.screen.hasStatus = true)
    (bytes : List UInt8) (bell : β) (x : Nat) :
    (t.print bytes bell).1.cell? x (rows - 1) = t.cell? x (rows - 1) := by
  have after : (t.print bytes bell).1.Reachable := h.operate (.print bytes) bell
  have still : (t.print bytes bell).1.screen.hasStatus = true :=
    (congrArg Setup.statusLine (t.setup_print bytes bell)).trans reserved
  rw [← h.cell?_last_row reserved, ← after.cell?_last_row still]
  exact h.screen_print_last_row reserved bytes bell x

end Reachable

/-- **The host and the status row are apart.** Whatever bytes arrive, the reserved row
keeps its cells, as displayed and as written, and the setup stays; and the status line may
be drawn before the bytes or after them, which makes no difference to the terminal or to
the bell. -/
theorem status_row_isolated {t : Terminal cols rows} (h : t.Reachable)
    (reserved : t.screen.hasStatus = true) (bytes : List UInt8) (bell : β) :
    let u := (t.print bytes bell).1
    (∀ x, u.cell? x (rows - 1) = t.cell? x (rows - 1) ∧
      u.screen.cell? x (rows - 1) = t.screen.cell? x (rows - 1)) ∧
    u.lines = t.lines ∧ u.screen.hasStatus = t.screen.hasStatus ∧ u.policy = t.policy ∧
    u.colors = t.colors ∧
    ∀ left right, (t.writeStatus left right).print bytes bell =
      (u.writeStatus left right, (t.print bytes bell).2) := by
  intro u
  have hu : u.Reachable := h.operate (.print bytes) bell
  have setup : u.setup = t.setup := t.setup_print bytes bell
  have status : u.screen.hasStatus = t.screen.hasStatus := congrArg Setup.statusLine setup
  have colors : u.colors = t.colors := congrArg Setup.colors setup
  have still : u.screen.hasStatus = true := status.trans reserved
  refine ⟨fun x => ⟨?_, ?_⟩, Screen.lines_congr status, status, congrArg Setup.policy setup,
    colors, fun left right => ?_⟩
  · exact h.cell?_print_last_row reserved bytes bell x
  · exact h.screen_print_last_row reserved bytes bell x
  · rw [h.writeStatus_eq reserved, hu.writeStatus_eq still, colors]
    exact h.print_setLastRow reserved _ bytes bell

/-- The host prints past the last line, erases everything it can, scrolls by more than
there is and leaves the cursor shown in the lowest line. -/
theorem status_row_isolated_from_scroll :
    let t := ((create 3 3 {}).operateAll [.banner, .writeStatus [0x4C] [0x39, 0x4E]]
      (⟨0⟩ : Bell.Tally)).1
    let bytes := [0x41, 0x42, 0x43, 0x44, 0x0A, 0x0A, 0x07, 0x1B, 0x5B, 0x32, 0x4A,
      0x1B, 0x5B, 0x39, 0x53, 0x1B, 0x5B, 0x39, 0x42, 0x1B, 0x5B, 0x31, 0x4B, 0x1B, 0x5B, 0x4A]
    t.Reachable ∧ t.screen.hasStatus = true ∧
      (t.print bytes (⟨0⟩ : Bell.Tally)).1.cell? 2 2 = some ⟨0x4E, .lightGray, .black⟩ ∧
      (t.writeStatus [0x4F] []).print bytes (⟨0⟩ : Bell.Tally) =
        ((t.print bytes (⟨0⟩ : Bell.Tally)).1.writeStatus [0x4F] [], ⟨1⟩) := by
  intro t bytes
  have reached : t.Reachable := (Reachable.create {}).operateAll _ _
  have reserved : t.screen.hasStatus = true := by decide +kernel
  obtain ⟨cells, -, -, -, -, drawn⟩ := status_row_isolated reached reserved bytes
    (⟨0⟩ : Bell.Tally)
  refine ⟨reached, reserved, ?_, ?_⟩
  · rw [(cells 2).1]
    decide +kernel
  · rw [drawn]
    have rung : (t.print bytes (⟨0⟩ : Bell.Tally)).2 = ⟨1⟩ := by decide +kernel
    rw [rung]

end Terminal

end SerialTerminal
