/-
Where the marker is after every operation.

The marker is a change to cell memory, so two things can go wrong with it: it can
be left over a cell that the cursor has moved away from, and it can be missing.
**`place` rules out both**, whatever was done before it: the marker it leaves
covers the cursor's cell if the cursor is shown, and nothing otherwise. Every
operation that changes a cell or the cursor ends in `place`, so this is true of
every reachable terminal (`Reachable.markerPlaced`), and it needs no bound on the
cursor: over a cell that is not there, no marker is laid.

The lemmas about `lift` and `place` are stated through the logical view
`Terminal.cell?`, which neither of the two changes.
-/
import SerialTerminal.Proofs.Terminal.Operation

set_option autoImplicit false

namespace SerialTerminal

namespace Terminal

variable {β : Type} [Bell β] {cols rows : Nat}

/-! ## Lifting and placing, through the view -/

/-- **Lifting the marker uncovers the logical view.** -/
theorem cell?_screen_lift (t : Terminal cols rows) (x y : Nat) :
    t.lift.screen.cell? x y = t.cell? x y := by
  rcases hu : t.marker.under with _ | ⟨pos, code⟩
  · simp [lift, cell?, Marker.lift, Marker.covered?, hu]
  -- the one cell that lifting rewrites is the one that the view corrects
  · simp only [lift, cell?, Marker.lift, Marker.covered?, hu, Screen.cell?_setCode]
    by_cases here : x = pos.x ∧ y = pos.y
    · obtain ⟨rfl, rfl⟩ := here
      simp
    · have apart : ¬ pos = ⟨x, y⟩ := fun e => here (by rw [e]; exact ⟨rfl, rfl⟩)
      simp [here, apart]

@[simp] theorem cursorVisible_lift (t : Terminal cols rows) :
    t.lift.cursorVisible = t.cursorVisible :=
  Marker.visible_lift ..

@[simp] theorem under_marker_lift (t : Terminal cols rows) : t.lift.marker.under = none :=
  Marker.under_lift ..

@[simp] theorem hasStatus_screen_lift (t : Terminal cols rows) :
    t.lift.screen.hasStatus = t.screen.hasStatus :=
  Marker.hasStatus_lift ..

theorem lines_lift (t : Terminal cols rows) : t.lift.lines = t.lines :=
  Screen.lines_congr t.hasStatus_screen_lift

@[simp] theorem cursorVisible_place (t : Terminal cols rows) :
    t.place.cursorVisible = t.cursorVisible :=
  Marker.visible_place ..

@[simp] theorem hasStatus_screen_place (t : Terminal cols rows) :
    t.place.screen.hasStatus = t.screen.hasStatus :=
  Marker.hasStatus_place ..

/-- Where the marker covers nothing, the view is the screen. -/
theorem cell?_of_under_eq_none {t : Terminal cols rows} (h : t.marker.under = none) (x y : Nat) :
    t.cell? x y = t.screen.cell? x y := by
  simp [cell?, Marker.covered?, h]

/-- A marker that is not to be shown, or whose cell is off the grid, is lifted and
not laid down again. -/
theorem place_eq_lift {t : Terminal cols rows}
    (h : t.cursorVisible = true → t.cell? t.cursor.x t.cursor.y = none) : t.place = t.lift := by
  by_cases shown : t.marker.visible = true
  · have gone : (t.marker.lift t.screen).2.cell? t.cursor.x t.cursor.y = none := by
      rw [← h shown]
      exact cell?_screen_lift t _ _
    simp [place, lift, Marker.place, gone]
  · simp [place, lift, Marker.place, shown]

/-- A marker that is to be shown is laid over the cursor's cell and remembers the
code that belongs there. -/
theorem place_eq_of_some {t : Terminal cols rows} {g : Glyph} (shown : t.cursorVisible = true)
    (hg : t.cell? t.cursor.x t.cursor.y = some g) :
    t.place = { t with
      marker := ⟨true, some (t.cursor, g.code)⟩
      screen := t.lift.screen.setCode t.cursor.x t.cursor.y Marker.code } := by
  have hvis : (t.marker.lift t.screen).1.visible = true := by
    rw [← shown]
    exact t.cursorVisible_lift
  have there : (t.marker.lift t.screen).2.cell? t.cursor.x t.cursor.y = some g := by
    rw [← hg]
    exact cell?_screen_lift t _ _
  simp only [place, lift, Marker.place, hvis, if_true, there]

/-- The two ways in which placing ends. -/
theorem shown_cases (t : Terminal cols rows) :
    (t.cursorVisible = true → t.cell? t.cursor.x t.cursor.y = none) ∨
      ∃ g, t.cursorVisible = true ∧ t.cell? t.cursor.x t.cursor.y = some g := by
  rcases hg : t.cell? t.cursor.x t.cursor.y with _ | g
  · exact .inl fun _ => rfl
  · by_cases shown : t.cursorVisible = true
    · exact .inr ⟨g, shown, rfl⟩
    · exact .inl fun h => absurd h shown

/-- **Placing does not change the logical view.** -/
theorem cell?_place (t : Terminal cols rows) (x y : Nat) : t.place.cell? x y = t.cell? x y := by
  rcases t.shown_cases with h | ⟨g, shown, hg⟩
  · rw [place_eq_lift h, cell?_of_under_eq_none t.under_marker_lift, cell?_screen_lift]
  · rw [place_eq_of_some shown hg]
    change ((t.lift.screen.setCode t.cursor.x t.cursor.y Marker.code).cell? x y).map
      (fun g' => g'.withCode
        ((Marker.covered? ⟨true, some (t.cursor, g.code)⟩ ⟨x, y⟩).getD g'.code)) = t.cell? x y
    rw [Screen.cell?_setCode, cell?_screen_lift]
    by_cases here : t.cursor = ⟨x, y⟩
    · rw [here] at hg ⊢
      simp [Marker.covered?, hg]
    · have apart : ¬ (x = t.cursor.x ∧ y = t.cursor.y) := fun e => here (by rw [e.1, e.2])
      simp [Marker.covered?, here, apart]

/-! ## The marker in its place -/

/-- The screen shows the logical view, with the marker's code for the cell of a
cursor that is shown. The colors of that cell are its own. -/
def ShowsView (t : Terminal cols rows) : Prop :=
  ∀ x y, t.screen.cell? x y =
    (t.cell? x y).map fun g =>
      if t.cursorVisible ∧ t.cursor = ⟨x, y⟩ then g.withCode Marker.code else g

/-- The marker lies over the cursor's cell, if the cursor is shown, and over no
other. -/
structure MarkerPlaced (t : Terminal cols rows) : Prop where
  /-- What is covered: the cursor's cell, with the code that belongs there. -/
  under_eq : t.marker.under =
    if t.cursorVisible then (t.cell? t.cursor.x t.cursor.y).map fun g => (t.cursor, g.code)
    else none
  showsView : t.ShowsView

/-- **Placing puts the marker in its place**, from wherever it was. -/
theorem markerPlaced_place (t : Terminal cols rows) : t.place.MarkerPlaced := by
  have view := cell?_place t
  rcases t.shown_cases with h | ⟨g, shown, hg⟩
  -- nothing is laid down: the screen is the view, and no shown cursor has a cell
  · rw [place_eq_lift h] at view ⊢
    refine ⟨?_, fun x y => ?_⟩
    · rw [under_marker_lift, cursorVisible_lift, view]
      split
      next shown =>
        have gone : t.cell? t.lift.cursor.x t.lift.cursor.y = none := h shown
        rw [gone]
        rfl
      next => rfl
    · rw [cell?_screen_lift, view, cursorVisible_lift]
      by_cases here : t.cursorVisible = true ∧ t.cursor = ⟨x, y⟩
      · have gone := h here.1
        rw [here.2] at gone
        rw [gone]
        rfl
      · have : ¬ (t.cursorVisible = true ∧ t.lift.cursor = ⟨x, y⟩) := here
        simp [this]
  -- the marker is laid over `g`, which is what the view goes on showing
  · rw [place_eq_of_some shown hg] at view ⊢
    refine ⟨?_, fun x y => ?_⟩
    · rw [view]
      simp [cursorVisible, hg]
    · rw [view]
      by_cases here : t.cursor = ⟨x, y⟩
      · rw [here]
        simp [cursorVisible, Screen.cell?_setCode, cell?_screen_lift]
      · have apart : ¬ (x = t.cursor.x ∧ y = t.cursor.y) := fun e => here (by rw [e.1, e.2])
        simp [Screen.cell?_setCode, cell?_screen_lift, here, apart]

/-- A hidden marker that covers nothing is in its place. -/
theorem markerPlaced_of_hidden {t : Terminal cols rows} (hidden : t.cursorVisible = false)
    (none : t.marker.under = none) : t.MarkerPlaced := by
  refine ⟨by rw [none, hidden]; rfl, fun x y => ?_⟩
  simp [cell?_of_under_eq_none none, hidden]

/-! ## Through a run -/

theorem MarkerPlaced.print {t : Terminal cols rows} (h : t.MarkerPlaced) (bytes : List UInt8)
    (bell : β) : (t.print bytes bell).1.MarkerPlaced := by
  induction bytes generalizing t bell with
  | nil => exact h
  | cons b bytes ih => exact ih (markerPlaced_place _) _

/-- One operation leaves the marker in its place. All but the empty run of bytes
and the change of the line policy put it there themselves. -/
theorem MarkerPlaced.operate {t : Terminal cols rows} (h : t.MarkerPlaced) (op : Operation)
    (bell : β) : (t.operate op bell).1.MarkerPlaced := by
  cases op with
  | print bytes => exact h.print bytes bell
  | setPolicy policy => exact ⟨h.under_eq, h.showsView⟩
  | _ => exact markerPlaced_place _

/-- **The marker is in its place in every reachable terminal.** -/
theorem Reachable.markerPlaced {t : Terminal cols rows} (h : t.Reachable) : t.MarkerPlaced := by
  induction h with
  | create settings => exact markerPlaced_of_hidden rfl rfl
  | operate op bell _ ih => exact ih.operate op bell

end Terminal

end SerialTerminal
