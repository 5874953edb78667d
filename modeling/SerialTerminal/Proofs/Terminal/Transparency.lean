/-
The marker is transparent: what a terminal does never depends on whether the
cursor is shown.

The argument is a comparison with the **bare** terminal, the one whose marker has
been lifted and is never laid down again. Every change that is made between
`lift` and `place` finds no marker on the screen and looks at none
(`MarkerBlind`), so an edit of a terminal is, once the marker is taken away, the
same edit of its bare terminal (`bare_edit`). Two terminals agree exactly when
their bare terminals are equal, and so they go on agreeing.

Together with `MarkerPlaced`, which says what the screen shows beyond the bare
terminal, this leaves nowhere for a marker to be lost, scrolled or saved.
-/
import SerialTerminal.Proofs.Terminal.Marker

set_option autoImplicit false

namespace SerialTerminal

namespace Terminal

variable {β : Type} [Bell β] {cols rows : Nat}

/-! ## The bare terminal -/

/-- The same terminal with another marker in hand, and the screen as it is. -/
def withMarker (t : Terminal cols rows) (m : Marker) : Terminal cols rows :=
  { t with marker := m }

/-- The terminal with its marker lifted, and the cursor hidden. -/
def bare (t : Terminal cols rows) : Terminal cols rows :=
  t.lift.withMarker {}

theorem cell?_screen_bare (t : Terminal cols rows) (x y : Nat) :
    t.bare.screen.cell? x y = t.cell? x y :=
  cell?_screen_lift t x y

@[simp] theorem hasStatus_screen_bare (t : Terminal cols rows) :
    t.bare.screen.hasStatus = t.screen.hasStatus :=
  t.hasStatus_screen_lift

/-- Lifting only takes a marker away that the bare terminal does not have. -/
theorem lift_eq_withMarker (t : Terminal cols rows) :
    t.lift = t.bare.withMarker ⟨t.cursorVisible, none⟩ := by
  have hm : t.lift.marker = ⟨t.cursorVisible, none⟩ := by
    rw [← t.under_marker_lift, ← t.cursorVisible_lift]
    rfl
  rw [← hm]
  rfl

/-- Where nothing is covered, only the marker is left to take away. -/
theorem bare_of_under_eq_none {t : Terminal cols rows} (h : t.marker.under = none) :
    t.bare = t.withMarker {} := by
  simp only [bare, lift, Marker.lift, h]

/-- The two terminals agree in everything that is not the marker: in the logical
view, in both positions, in colors, policy, parser and status flag. -/
structure Agrees (t u : Terminal cols rows) : Prop where
  cell?_eq (x y : Nat) : t.cell? x y = u.cell? x y
  cursor_eq : t.cursor = u.cursor
  saved_eq : t.saved = u.saved
  attrs_eq : t.attrs = u.attrs
  colors_eq : t.colors = u.colors
  policy_eq : t.policy = u.policy
  parser_eq : t.parser = u.parser
  hasStatus_eq : t.screen.hasStatus = u.screen.hasStatus

/-- **To agree is to be the same terminal but for the marker.** -/
theorem agrees_iff_bare {t u : Terminal cols rows} : t.Agrees u ↔ t.bare = u.bare := by
  constructor
  · intro h
    -- with the marker gone, the view and the status flag are all there is to a screen
    have hscreen : t.bare.screen = u.bare.screen := by
      refine Screen.ext_cell? (fun x y => ?_) ?_
      · rw [cell?_screen_bare, cell?_screen_bare, h.cell?_eq]
      · rw [hasStatus_screen_bare, hasStatus_screen_bare, h.hasStatus_eq]
    exact Terminal.ext hscreen h.cursor_eq h.saved_eq h.attrs_eq h.colors_eq h.policy_eq
      h.parser_eq rfl
  · intro h
    refine ⟨fun x y => ?_, congrArg (·.cursor) h, congrArg (·.saved) h, congrArg (·.attrs) h,
      congrArg (·.colors) h, congrArg (·.policy) h, congrArg (·.parser) h, ?_⟩
    · rw [← cell?_screen_bare, h, cell?_screen_bare]
    · rw [← hasStatus_screen_bare, h, hasStatus_screen_bare]

/-! ## Changes that do not look at the marker -/

/-- A change comes out the same whatever marker is in hand; it may change whether
the cursor is to be shown, and nothing else about the marker. -/
def MarkerBlind (change : Terminal cols rows → Terminal cols rows) : Prop :=
  ∀ t m, ∃ visible, change (t.withMarker m) = (change t).withMarker { m with visible }

/-- A change that hands the marker through untouched. -/
theorem MarkerBlind.of_comm {change : Terminal cols rows → Terminal cols rows}
    (h : ∀ t m, change (t.withMarker m) = (change t).withMarker m) : MarkerBlind change :=
  fun t m => ⟨m.visible, h t m⟩

section Comm

variable (t : Terminal cols rows) (m : Marker)

theorem moveTo_withMarker (x y : Nat) :
    (t.withMarker m).moveTo x y = (t.moveTo x y).withMarker m := rfl

theorem clearPage_withMarker (attrs : Attrs) :
    (t.withMarker m).clearPage attrs = (t.clearPage attrs).withMarker m := rfl

theorem carriageReturn_withMarker :
    (t.withMarker m).carriageReturn = t.carriageReturn.withMarker m := rfl

theorem lineFeed_withMarker : (t.withMarker m).lineFeed = t.lineFeed.withMarker m := by
  simp only [lineFeed, apply_ite (withMarker · m)]
  rfl

theorem putChar_withMarker (code : UInt8) :
    (t.withMarker m).putChar code = (t.putChar code).withMarker m := by
  simp only [putChar, apply_ite (withMarker · m), ← lineFeed_withMarker]
  rfl

theorem backspace_withMarker : (t.withMarker m).backspace = t.backspace.withMarker m := by
  simp only [backspace, apply_ite (withMarker · m)]
  rfl

theorem tab_withMarker : (t.withMarker m).tab = t.tab.withMarker m := by
  simp only [tab, apply_ite (withMarker · m)]
  rfl

theorem control_withMarker (c : Control) :
    (t.withMarker m).control c = (t.control c).withMarker m := by
  cases c with
  | bell => rfl
  | backspace => exact backspace_withMarker t m
  | tab => exact tab_withMarker t m
  | carriageReturn =>
    simp only [control, apply_ite (withMarker · m)]
    rw [carriageReturn_withMarker, lineFeed_withMarker]
    rfl
  | lineFeed =>
    simp only [control, apply_ite (withMarker · m)]
    rw [lineFeed_withMarker, carriageReturn_withMarker]
    rfl
  | formFeed => exact clearPage_withMarker t m t.attrs

theorem render_withMarker (r : Rendition) :
    (t.withMarker m).render r = (t.render r).withMarker m := by
  cases r <;> rfl

theorem eraseLine_withMarker (extent : Extent) :
    (t.withMarker m).eraseLine extent = (t.eraseLine extent).withMarker m := by
  cases extent <;> rfl

theorem erasePage_withMarker (extent : Extent) :
    (t.withMarker m).erasePage extent = (t.erasePage extent).withMarker m := by
  cases extent with
  | toEnd | toStart => rfl
  | whole => exact clearPage_withMarker t m t.attrs

/-- The one command that touches the marker decides whether it is to be shown. -/
theorem run_withMarker (c : Command) :
    ∃ visible, (t.withMarker m).run c = (t.run c).withMarker { m with visible } := by
  cases c with
  -- whatever was to be shown before, the command decides
  | showCursor visible => exact ⟨visible, rfl⟩
  | eraseLine extent => exact ⟨m.visible, eraseLine_withMarker t m extent⟩
  | erasePage extent => exact ⟨m.visible, erasePage_withMarker t m extent⟩
  | render r => exact ⟨m.visible, render_withMarker t m r⟩
  | cursorDown | cursorRight | cursorTo | restoreCursor =>
    exact ⟨m.visible, moveTo_withMarker t m _ _⟩
  | cursorUp | cursorLeft | scrollUp | saveCursor => exact ⟨m.visible, rfl⟩

theorem perform_withMarker (a : Action) :
    ∃ visible, (t.withMarker m).perform a = (t.perform a).withMarker { m with visible } := by
  cases a with
  | none => exact ⟨m.visible, rfl⟩
  | print code => exact ⟨m.visible, putChar_withMarker t m code⟩
  | control b =>
    refine ⟨m.visible, ?_⟩
    simp only [perform]
    cases Control.ofByte? b with
    | none => rfl
    | some c => exact control_withMarker t m c
  | csi c =>
    simp only [perform]
    cases c.command? with
    | none => exact ⟨m.visible, rfl⟩
    | some command => exact run_withMarker t m command

end Comm

theorem markerBlind_interpret (b : UInt8) :
    MarkerBlind fun t : Terminal cols rows => t.interpret b := fun t m =>
  perform_withMarker { t with parser := (t.parser.feed b).1 } m (t.parser.feed b).2

/-! ## Edits of the bare terminal -/

@[simp] theorem bare_place (t : Terminal cols rows) : t.place.bare = t.bare := by
  rw [← agrees_iff_bare]
  exact ⟨t.cell?_place, rfl, rfl, rfl, rfl, rfl, rfl, t.hasStatus_screen_place⟩

/-- **An edit acts on the bare terminal**, whether and wherever a marker was
displayed. -/
theorem bare_edit {change : Terminal cols rows → Terminal cols rows} (h : MarkerBlind change)
    (t : Terminal cols rows) : (t.edit change).bare = (change t.bare).withMarker {} := by
  obtain ⟨visible, hv⟩ := h t.bare ⟨t.cursorVisible, none⟩
  -- the change is made between lifting and placing, where no cell is covered
  rw [edit, bare_place, lift_eq_withMarker, hv, bare_of_under_eq_none rfl]
  rfl

/-- Edits of terminals that agree, by one change, agree. -/
theorem Agrees.edit {t u : Terminal cols rows} (h : t.Agrees u)
    {change : Terminal cols rows → Terminal cols rows} (hc : MarkerBlind change) :
    (t.edit change).Agrees (u.edit change) := by
  rw [agrees_iff_bare] at h ⊢
  rw [bare_edit hc, bare_edit hc, h]

/-! ## Two runs -/

theorem Agrees.receive {t u : Terminal cols rows} (h : t.Agrees u) (b : UInt8) :
    (t.receive b).Agrees (u.receive b) :=
  h.edit (markerBlind_interpret b)

/-- The parser alone decides which bytes ring. -/
theorem Agrees.rings_eq {t u : Terminal cols rows} (h : t.Agrees u) (b : UInt8) :
    t.rings b = u.rings b := by
  rw [rings, rings, h.parser_eq]

theorem Agrees.print {t u : Terminal cols rows} (h : t.Agrees u) (bytes : List UInt8)
    (bell : β) :
    (t.print bytes bell).1.Agrees (u.print bytes bell).1 ∧
      (t.print bytes bell).2 = (u.print bytes bell).2 := by
  induction bytes generalizing t u bell with
  | nil => exact ⟨h, rfl⟩
  | cons b bytes ih =>
    -- both bells are the same one as long as they have rung for the same bytes
    have hbell : (t.handle b bell).2 = (u.handle b bell).2 := by
      rw [handle, handle, h.rings_eq]
    rw [Terminal.print, Terminal.print, hbell]
    exact ih (h.receive b) _

theorem Agrees.place {t u : Terminal cols rows} (h : t.Agrees u) : t.place.Agrees u.place := by
  rw [agrees_iff_bare] at h ⊢
  rw [bare_place, bare_place, h]

/-- Whether the cursor is to be shown is not part of what agrees. -/
theorem Agrees.withVisible {t u : Terminal cols rows} (h : t.Agrees u) (visible : Bool) :
    { t with marker := { t.marker with visible } }.Agrees
      { u with marker := { u.marker with visible } } :=
  ⟨h.cell?_eq, h.cursor_eq, h.saved_eq, h.attrs_eq, h.colors_eq, h.policy_eq, h.parser_eq,
    h.hasStatus_eq⟩

theorem Agrees.reset {t u : Terminal cols rows} (h : t.Agrees u) : t.reset.Agrees u.reset := by
  unfold Terminal.reset
  exact h.edit (.of_comm fun _ _ => rfl)

theorem Agrees.banner {t u : Terminal cols rows} (h : t.Agrees u) : t.banner.Agrees u.banner := by
  unfold Terminal.banner
  -- after the identification is written the cursor is shown, in both terminals
  refine Agrees.place (Agrees.withVisible ?_ true)
  exact h.reset.edit (.of_comm fun _ _ => rfl)

theorem Agrees.apply {t u : Terminal cols rows} (h : t.Agrees u) (settings : Settings) :
    (t.apply settings).Agrees (u.apply settings) := by
  unfold Terminal.apply
  exact h.edit (.of_comm fun _ _ => rfl)

theorem Agrees.setStatusLine {t u : Terminal cols rows} (h : t.Agrees u) (enabled : Bool) :
    (t.setStatusLine enabled).Agrees (u.setStatusLine enabled) := by
  unfold Terminal.setStatusLine
  exact h.edit (.of_comm fun _ _ => rfl)

theorem Agrees.clearWith {t u : Terminal cols rows} (h : t.Agrees u) (attrs : Attrs) :
    (t.clearWith attrs).Agrees (u.clearWith attrs) := by
  unfold Terminal.clearWith
  exact h.edit (.of_comm fun _ _ => rfl)

theorem Agrees.editScreen {t u : Terminal cols rows} (h : t.Agrees u)
    (change : Screen cols rows → Screen cols rows) :
    (t.editScreen change).Agrees (u.editScreen change) := by
  unfold Terminal.editScreen
  exact h.edit (.of_comm fun _ _ => rfl)

theorem Agrees.writeStatus {t u : Terminal cols rows} (h : t.Agrees u)
    (left right : List UInt8) : (t.writeStatus left right).Agrees (u.writeStatus left right) := by
  unfold Terminal.writeStatus
  -- the status row is drawn in colors of the terminal's own
  rw [h.colors_eq]
  exact h.editScreen _

/-- **One operation on two terminals that agree**: they agree afterwards, and have
rung the same. -/
theorem Agrees.operate {t u : Terminal cols rows} (h : t.Agrees u) (op : Operation) (bell : β) :
    (t.operate op bell).1.Agrees (u.operate op bell).1 ∧
      (t.operate op bell).2 = (u.operate op bell).2 := by
  cases op with
  | handle b =>
    refine ⟨h.receive b, ?_⟩
    rw [Terminal.operate, Terminal.operate, handle, handle, h.rings_eq]
  | print bytes => exact h.print bytes bell
  | banner => exact ⟨h.banner, rfl⟩
  | reset => exact ⟨h.reset, rfl⟩
  | apply settings => exact ⟨h.apply settings, rfl⟩
  | setPolicy policy =>
    exact ⟨⟨h.cell?_eq, h.cursor_eq, h.saved_eq, h.attrs_eq, h.colors_eq, rfl, h.parser_eq,
      h.hasStatus_eq⟩, rfl⟩
  | setStatusLine enabled => exact ⟨h.setStatusLine enabled, rfl⟩
  | writeStatus left right => exact ⟨h.writeStatus left right, rfl⟩
  | clearWith attrs => exact ⟨h.clearWith attrs, rfl⟩
  | writeText row col text => exact ⟨h.editScreen (·.writeText row col text), rfl⟩
  | writeColored row col attrs text =>
    exact ⟨h.editScreen (·.writeColored row col attrs text), rfl⟩
  | drawBox row col width height attrs =>
    exact ⟨h.editScreen (·.drawBox row col width height attrs), rfl⟩

theorem Agrees.operateAll {t u : Terminal cols rows} (h : t.Agrees u) (ops : List Operation)
    (bell : β) :
    (t.operateAll ops bell).1.Agrees (u.operateAll ops bell).1 ∧
      (t.operateAll ops bell).2 = (u.operateAll ops bell).2 := by
  induction ops generalizing t u bell with
  | nil => exact ⟨h, rfl⟩
  | cons op ops ih =>
    obtain ⟨hop, hbell⟩ := h.operate op bell
    rw [Terminal.operateAll, Terminal.operateAll, hbell]
    exact ih hop _

/-- **The marker is transparent.** Two reachable terminals that agree in all but
the marker, one of them perhaps with a visible cursor and the other without, are
put through the same operations: they agree after every one of them and ring
alike, and each of them always shows its logical view, with the marker over the
cursor while that is visible and nowhere else. -/
theorem marker_transparent {t u : Terminal cols rows} (ht : t.Reachable) (hu : u.Reachable)
    (h : t.Agrees u) (ops : List Operation) (bell : β) :
    (t.operateAll ops bell).1.Agrees (u.operateAll ops bell).1 ∧
      (t.operateAll ops bell).2 = (u.operateAll ops bell).2 ∧
      (t.operateAll ops bell).1.ShowsView ∧ (u.operateAll ops bell).1.ShowsView := by
  obtain ⟨agree, rung⟩ := h.operateAll ops bell
  refine ⟨agree, rung, ?_, ?_⟩
  · exact (ht.operateAll ops bell).markerPlaced.showsView
  · exact (hu.operateAll ops bell).markerPlaced.showsView

/-- A terminal with the cursor hidden and one which the host has told to show it,
through a scroll, a released status row and an erase at the cursor. -/
theorem marker_transparent_hidden_shown :
    (create 2 2 {}).Reachable ∧
      ((create 2 2 {}).operate (.print [0x1B, 0x5B, 0x3F, 0x32, 0x35, 0x68])
        Bell.Silent.mk).1.Reachable ∧
      (create 2 2 {}).Agrees ((create 2 2 {}).operate
        (.print [0x1B, 0x5B, 0x3F, 0x32, 0x35, 0x68]) Bell.Silent.mk).1 ∧
      (let ops := [.print [0x41, 0x42, 0x07], .setStatusLine false,
        .print [0x0A, 0x1B, 0x5B, 0x4B]]
      let hidden := (create 2 2 {}).operateAll ops (⟨0⟩ : Bell.Tally)
      let shown := ((create 2 2 {}).operate (.print [0x1B, 0x5B, 0x3F, 0x32, 0x35, 0x68])
        Bell.Silent.mk).1.operateAll ops (⟨0⟩ : Bell.Tally)
      hidden.1.Agrees shown.1 ∧ hidden.2 = shown.2 ∧ hidden.1.ShowsView ∧ shown.1.ShowsView) := by
  have hh : (create 2 2 {}).Reachable := .create {}
  have hs := hh.operate (.print [0x1B, 0x5B, 0x3F, 0x32, 0x35, 0x68]) Bell.Silent.mk
  have agree : (create 2 2 {}).Agrees ((create 2 2 {}).operate
      (.print [0x1B, 0x5B, 0x3F, 0x32, 0x35, 0x68]) Bell.Silent.mk).1 := agrees_iff_bare.2 rfl
  exact ⟨hh, hs, agree, marker_transparent hh hs agree _ _⟩

end Terminal

end SerialTerminal
