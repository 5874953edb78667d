/-
What clearing the page and drawing the status line leave of a terminal.

Two terminals show the same page when their addressable cells are the same, whatever is in
a last row that is reserved (`Screen.SamePage`). Clearing makes pages the same that were
different, writing text keeps them so, and it does no harm if the text runs into the
reserved row: **drawing the status line fills that row, and then nothing is left in which
the two screens could differ** (`SamePage.writeStatus_eq`).

Applying settings and a reset overwrite the rest of a terminal as well, all but whether its
cursor is shown. So together with the status line they make equal terminals out of any two
(`Terminal.applied_eq`). No bound on grid or cursor is needed for that, and the marker may be
anywhere before.
-/
import SerialTerminal.Proofs.Terminal.Isolation

set_option autoImplicit false

namespace SerialTerminal

variable {cols rows : Nat}

namespace Screen

/-- The addressable cells are the same ones and show the same. -/
structure SamePage (s t : Screen cols rows) : Prop where
  hasStatus_eq : s.hasStatus = t.hasStatus
  cell?_eq : ∀ x y, y < s.lines → s.cell? x y = t.cell? x y

variable {s t : Screen cols rows}

/-- Cells that are filled without a look at them are the same in both. -/
theorem map_const_cell? (s t : Screen cols rows) (g : Glyph) (x y : Nat) :
    (s.cell? x y).map (fun _ => g) = (t.cell? x y).map fun _ => g := by
  by_cases inside : x < cols ∧ y < rows
  · rw [cell?_eq_some inside.1 inside.2, cell?_eq_some inside.1 inside.2]
    rfl
  · rw [(cell?_eq_none_iff s x y).2 inside, (cell?_eq_none_iff t x y).2 inside]

/-- Below the grid there is nothing to differ in. -/
theorem cell?_eq_of_rows_le (s t : Screen cols rows) (x : Nat) {y : Nat} (below : rows ≤ y) :
    s.cell? x y = t.cell? x y := by
  have outside : ¬ (x < cols ∧ y < rows) := fun inside => Nat.not_lt.2 below inside.2
  rw [(cell?_eq_none_iff s x y).2 outside, (cell?_eq_none_iff t x y).2 outside]

/-- **Clearing forgets the page.** -/
theorem samePage_clear (status : s.hasStatus = t.hasStatus) (attrs : Attrs) :
    (s.clear attrs).SamePage (t.clear attrs) := by
  refine ⟨status, ?_⟩
  intro x y inside
  have insideS : Region.page s.lines x y = true := decide_eq_true inside
  have insideT : Region.page t.lines x y = true := by
    rw [← lines_congr status]
    exact insideS
  rw [clear, clear, cell?_erase, cell?_erase, if_pos insideS, if_pos insideT]
  exact map_const_cell? s t (.blank attrs) x y

theorem SamePage.writeText (h : s.SamePage t) (row col : Nat) (text : List UInt8) :
    (s.writeText row col text).SamePage (t.writeText row col text) := by
  refine ⟨?_, ?_⟩
  · rw [hasStatus_writeText, hasStatus_writeText]
    exact h.hasStatus_eq
  · intro x y inside
    rw [lines_congr (hasStatus_writeText ..)] at inside
    rw [cell?_writeText, cell?_writeText, h.cell?_eq x y inside]

/-- **The status line covers what else may differ.** -/
theorem SamePage.writeStatus_eq (h : s.SamePage t) (left right : List UInt8) (attrs : Attrs) :
    s.writeStatus left right attrs = t.writeStatus left right attrs := by
  cases reserved : s.hasStatus with
  | true =>
    have reserved' : t.hasStatus = true := h.hasStatus_eq.symm.trans reserved
    have bottom := lines_add_one reserved
    rw [Screen.writeStatus_eq reserved, Screen.writeStatus_eq reserved']
    refine ext_cell? (fun x y => ?_) h.hasStatus_eq
    rw [cell?_setLastRow, cell?_setLastRow]
    by_cases last : y + 1 = rows
    · rw [if_pos last, if_pos last]
      exact map_const_cell? s t _ x y
    · rw [if_neg last, if_neg last]
      by_cases inside : y < s.lines
      · exact h.cell?_eq x y inside
      · exact cell?_eq_of_rows_le s t x (by omega)
  | false =>
    -- every row is addressable
    have released : t.hasStatus = false := h.hasStatus_eq.symm.trans reserved
    have bottom : s.lines = rows := by
      rw [lines, if_neg (by simp [reserved])]
    have same : s = t := by
      refine ext_cell? (fun x y => ?_) h.hasStatus_eq
      by_cases inside : y < s.lines
      · exact h.cell?_eq x y inside
      · exact cell?_eq_of_rows_le s t x (by omega)
    rw [same]

end Screen

namespace Terminal

variable {t u : Terminal cols rows}

/-! ## What the edits do to the bare terminal -/

/-- An edit keeps the cursor shown or hidden if its change does. -/
theorem cursorVisible_edit {change : Terminal cols rows → Terminal cols rows}
    (kept : (change t.lift).cursorVisible = t.lift.cursorVisible) :
    (t.edit change).cursorVisible = t.cursorVisible := by
  rw [edit, cursorVisible_place, kept, cursorVisible_lift]

theorem cursorVisible_editScreen (t : Terminal cols rows)
    (change : Screen cols rows → Screen cols rows) :
    (t.editScreen change).cursorVisible = t.cursorVisible :=
  cursorVisible_edit rfl

theorem bare_editScreen (t : Terminal cols rows) (change : Screen cols rows → Screen cols rows) :
    (t.editScreen change).bare = { t.bare with screen := change t.bare.screen } :=
  bare_edit (.of_comm fun _ _ => rfl) t

theorem bare_clearWith (t : Terminal cols rows) (attrs : Attrs) :
    (t.clearWith attrs).bare = t.bare.clearPage attrs :=
  bare_edit (.of_comm fun _ _ => rfl) t

/-- Of the terminal before, settings and a reset leave the screen alone, for what follows to
cover. -/
theorem bare_applied (t : Terminal cols rows) (settings : Settings) :
    (t.apply settings).reset.bare =
      { screen := (t.bare.screen.setStatus settings.statusLine settings.colors.text).clear
          settings.colors.text
        cursor := .home
        saved := .home
        attrs := settings.colors.text
        colors := settings.colors
        policy := settings.policy
        parser := .ground
        marker := {} } := by
  have applied : (t.apply settings).bare =
      ({ t.bare with
          policy := settings.policy
          colors := settings.colors
          attrs := settings.colors.text
          screen := t.bare.screen.setStatus settings.statusLine settings.colors.text }.clampCursor :
        Terminal cols rows) :=
    bare_edit (.of_comm fun _ _ => rfl) t
  have cleared : (t.apply settings).reset.bare =
      ({ (t.apply settings).bare.clearPage (t.apply settings).bare.colors.text with
          parser := .ground
          attrs := (t.apply settings).bare.colors.text
          saved := .home } : Terminal cols rows) :=
    bare_edit (.of_comm fun _ _ => rfl) (t.apply settings)
  rw [cleared, applied]
  rfl

/-! ## Terminals that show the same page -/

/-- The pages are the same, and so is what the status line and the marker are drawn with. -/
structure SamePage (t u : Terminal cols rows) : Prop where
  page : t.bare.screen.SamePage u.bare.screen
  cursor_eq : t.cursor = u.cursor
  visible_eq : t.cursorVisible = u.cursorVisible
  colors_eq : t.colors = u.colors

theorem samePage_clearWith (status : t.screen.hasStatus = u.screen.hasStatus)
    (visible : t.cursorVisible = u.cursorVisible) (colors : t.colors = u.colors) (attrs : Attrs) :
    (t.clearWith attrs).SamePage (u.clearWith attrs) := by
  have status' : t.bare.screen.hasStatus = u.bare.screen.hasStatus := by
    rw [hasStatus_screen_bare, hasStatus_screen_bare]
    exact status
  refine ⟨?_, rfl, ?_, colors⟩
  · rw [bare_clearWith, bare_clearWith]
    exact Screen.samePage_clear status' attrs
  · rw [clearWith, clearWith, cursorVisible_edit rfl, cursorVisible_edit rfl]
    exact visible

theorem SamePage.writeText (h : t.SamePage u) (row col : Nat) (text : List UInt8) :
    (t.writeText row col text).SamePage (u.writeText row col text) := by
  refine ⟨?_, h.cursor_eq, ?_, h.colors_eq⟩
  · rw [Terminal.writeText, Terminal.writeText, bare_editScreen, bare_editScreen]
    exact h.page.writeText row col text
  · rw [Terminal.writeText, Terminal.writeText, cursorVisible_editScreen, cursorVisible_editScreen]
    exact h.visible_eq

/-- With the status line drawn, the two terminals show the same on the whole grid. -/
theorem SamePage.screen_bare_writeStatus (h : t.SamePage u) (left right : List UInt8) :
    (t.writeStatus left right).bare.screen = (u.writeStatus left right).bare.screen := by
  rw [writeStatus, writeStatus, bare_editScreen, bare_editScreen, h.colors_eq]
  exact h.page.writeStatus_eq left right u.colors.status

/-- **And they display the same**: the marker is over the same cell, or over none. -/
theorem SamePage.screen_writeStatus (h : t.SamePage u) (left right : List UInt8) :
    (t.writeStatus left right).screen = (u.writeStatus left right).screen := by
  have placedT : (t.writeStatus left right).MarkerPlaced := markerPlaced_place _
  have placedU : (u.writeStatus left right).MarkerPlaced := markerPlaced_place _
  have same := h.screen_bare_writeStatus left right
  have cursor : (t.writeStatus left right).cursor = (u.writeStatus left right).cursor :=
    h.cursor_eq
  have visible : (t.writeStatus left right).cursorVisible =
      (u.writeStatus left right).cursorVisible := by
    rw [writeStatus, writeStatus, cursorVisible_editScreen, cursorVisible_editScreen]
    exact h.visible_eq
  refine Screen.ext_cell? (fun x y => ?_) ?_
  · rw [placedT.showsView, placedU.showsView, ← cell?_screen_bare, ← cell?_screen_bare, same,
      cursor, visible]
  · rw [← hasStatus_screen_bare, ← hasStatus_screen_bare (u.writeStatus left right), same]

/-- **Settings, a reset and the status line leave nothing of what a terminal was** but
whether its cursor is shown. -/
theorem applied_eq (visible : t.cursorVisible = u.cursorVisible) (settings : Settings)
    (left right : List UInt8) :
    (t.apply settings).reset.writeStatus left right =
      (u.apply settings).reset.writeStatus left right := by
  have drawn : ∀ t : Terminal cols rows,
      ((t.apply settings).reset.writeStatus left right).bare =
        { (t.apply settings).reset.bare with
          screen := (t.apply settings).reset.bare.screen.writeStatus left right
            settings.colors.status } :=
    fun t => bare_editScreen (t.apply settings).reset _
  have shown : ∀ t : Terminal cols rows,
      ((t.apply settings).reset.writeStatus left right).cursorVisible = t.cursorVisible := by
    intro t
    rw [writeStatus, cursorVisible_editScreen, reset, cursorVisible_edit rfl, apply,
      cursorVisible_edit rfl]
  have page : ((t.bare.screen.setStatus settings.statusLine settings.colors.text).clear
      settings.colors.text).SamePage
        ((u.bare.screen.setStatus settings.statusLine settings.colors.text).clear
          settings.colors.text) := by
    apply Screen.samePage_clear
    rw [Screen.hasStatus_setStatus, Screen.hasStatus_setStatus]
  apply (markerPlaced_place _).eq_of_agrees (markerPlaced_place _)
  · rw [agrees_iff_bare]
    change ((t.apply settings).reset.writeStatus left right).bare =
      ((u.apply settings).reset.writeStatus left right).bare
    rw [drawn, drawn, bare_applied, bare_applied]
    dsimp only
    rw [page.writeStatus_eq]
  · change ((t.apply settings).reset.writeStatus left right).cursorVisible =
      ((u.apply settings).reset.writeStatus left right).cursorVisible
    rw [shown, shown, visible]

end Terminal

end SerialTerminal
