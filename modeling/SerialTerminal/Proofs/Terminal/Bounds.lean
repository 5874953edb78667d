/-
The cursor never leaves the addressable cells.

Only some of the moves are clamped: left, up, a carriage return, a tab and the
wrap at the end of a row rely on what was true before them. So the bounds are an
invariant and not a fact about each function: **whatever is done to a terminal
whose cursor is in bounds leaves it in bounds.** The saved position is bounded by
the grid alone, since the status row may have been reserved after it was taken;
restoring it clamps.

The one moment at which the bounds do not hold is between a change of the status
row and the clamping that follows it. That is why `inBounds_moveTo` asks for
nothing about the cursor it moves.
-/
import SerialTerminal.Proofs.Terminal.Marker

set_option autoImplicit false

namespace SerialTerminal

namespace Terminal

variable {β : Type} [Bell β] {cols rows : Nat}

/-! ## The invariant -/

/-- The cursor is on an addressable cell, the saved position on the grid. -/
structure InBounds (t : Terminal cols rows) : Prop where
  cursor_x : t.cursor.x < cols
  cursor_y : t.cursor.y < t.lines
  saved_x : t.saved.x < cols
  saved_y : t.saved.y < rows

namespace InBounds

variable {t u : Terminal cols rows}

theorem cols_pos (h : t.InBounds) : 0 < cols :=
  Nat.zero_lt_of_lt h.cursor_x

theorem lines_pos (h : t.InBounds) : 0 < t.lines :=
  Nat.zero_lt_of_lt h.cursor_y

/-- The bounds look at the two positions and at the status flag, and at nothing
else. -/
theorem congr (h : t.InBounds) (hcursor : u.cursor = t.cursor) (hsaved : u.saved = t.saved)
    (hstatus : u.screen.hasStatus = t.screen.hasStatus) : u.InBounds := by
  have hlines : u.lines = t.lines := Screen.lines_congr hstatus
  refine ⟨?_, ?_, ?_, ?_⟩
  · rw [hcursor]; exact h.cursor_x
  · rw [hcursor, hlines]; exact h.cursor_y
  · rw [hsaved]; exact h.saved_x
  · rw [hsaved]; exact h.saved_y

/-- Another screen under the same cursor, with as many rows addressable. -/
theorem withScreen (h : t.InBounds) {s : Screen cols rows}
    (hstatus : s.hasStatus = t.screen.hasStatus) : { t with screen := s }.InBounds :=
  h.congr rfl rfl hstatus

/-- The cursor may go to any addressable cell. -/
theorem withCursor (h : t.InBounds) {x y : Nat} (hx : x < cols) (hy : y < t.lines) :
    { t with cursor := ⟨x, y⟩ }.InBounds :=
  ⟨hx, hy, h.saved_x, h.saved_y⟩

end InBounds

/-- **Clamping needs nothing of the cursor that it brings back.** -/
theorem inBounds_moveTo {t : Terminal cols rows} (hx : t.saved.x < cols) (hy : t.saved.y < rows)
    (x y : Nat) : (t.moveTo x y).InBounds := by
  have hlines : 0 < t.lines := t.screen.lines_pos (Nat.zero_lt_of_lt hy)
  refine ⟨?_, ?_, hx, hy⟩
  · change min x (cols - 1) < cols
    omega
  · change min y (t.lines - 1) < t.lines
    omega

/-! ## Characters and controls -/

namespace InBounds

variable {t : Terminal cols rows}

theorem moveTo (h : t.InBounds) (x y : Nat) : (t.moveTo x y).InBounds :=
  inBounds_moveTo h.saved_x h.saved_y x y

theorem carriageReturn (h : t.InBounds) : t.carriageReturn.InBounds :=
  h.withCursor h.cols_pos h.cursor_y

theorem lineFeed (h : t.InBounds) : t.lineFeed.InBounds := by
  unfold Terminal.lineFeed
  split
  next below => exact h.withCursor h.cursor_x below
  -- in the last row the page scrolls and the cursor stays
  next =>
    have last : t.lines - 1 < t.lines := Nat.sub_lt h.lines_pos Nat.one_pos
    exact (h.withCursor h.cursor_x last).withScreen rfl

theorem clearPage (h : t.InBounds) (attrs : Attrs) : (t.clearPage attrs).InBounds :=
  (h.withCursor h.cols_pos h.lines_pos).withScreen rfl

theorem putChar (h : t.InBounds) (code : UInt8) : (t.putChar code).InBounds := by
  have drawn : { t with
      screen := t.screen.put t.cursor.x t.cursor.y (.ofCode code t.attrs) }.InBounds :=
    h.withScreen (Screen.hasStatus_put ..)
  unfold Terminal.putChar
  dsimp only
  split
  next room => exact drawn.withCursor room drawn.cursor_y
  -- past the last column the cursor wraps, or stays where it is
  next =>
    split
    · exact drawn.carriageReturn.lineFeed
    · exact drawn

theorem backspace (h : t.InBounds) : t.backspace.InBounds := by
  have moved : { t with cursor := ⟨t.cursor.x - 1, t.cursor.y⟩ }.InBounds :=
    h.withCursor (Nat.lt_of_le_of_lt (Nat.sub_le ..) h.cursor_x) h.cursor_y
  unfold Terminal.backspace
  dsimp only
  split
  · exact moved.withScreen (Screen.hasStatus_put ..)
  · exact moved

theorem tab (h : t.InBounds) : t.tab.InBounds := by
  unfold Terminal.tab
  dsimp only
  split
  next inside => exact h.withCursor inside h.cursor_y
  next => exact h

theorem control (h : t.InBounds) (c : Control) : (t.control c).InBounds := by
  cases c with
  | bell => exact h
  | backspace => exact h.backspace
  | tab => exact h.tab
  | carriageReturn =>
    unfold Terminal.control
    dsimp only
    split
    · exact h.carriageReturn.lineFeed
    · exact h.carriageReturn
  | lineFeed =>
    unfold Terminal.control
    dsimp only
    split
    · exact h.lineFeed.carriageReturn
    · exact h.lineFeed
  | formFeed => exact h.clearPage t.attrs

/-! ## Control sequences -/

theorem render (h : t.InBounds) (r : Rendition) : (t.render r).InBounds := by
  cases r <;> exact h.congr rfl rfl rfl

theorem eraseLine (h : t.InBounds) (extent : Extent) : (t.eraseLine extent).InBounds := by
  cases extent <;> exact h.withScreen rfl

theorem erasePage (h : t.InBounds) (extent : Extent) : (t.erasePage extent).InBounds := by
  cases extent with
  | toEnd => exact h.withScreen rfl
  | toStart => exact h.withScreen rfl
  | whole => exact h.clearPage t.attrs

/-- One case for each command. Up and left only shrink a coordinate; the others
that move clamp. -/
theorem run (h : t.InBounds) (c : Command) : (t.run c).InBounds := by
  cases c with
  | cursorUp n => exact h.withCursor h.cursor_x (Nat.lt_of_le_of_lt (Nat.sub_le ..) h.cursor_y)
  | cursorDown n => exact h.moveTo _ _
  | cursorRight n => exact h.moveTo _ _
  | cursorLeft n => exact h.withCursor (Nat.lt_of_le_of_lt (Nat.sub_le ..) h.cursor_x) h.cursor_y
  | cursorTo x y => exact h.moveTo x y
  | eraseLine extent => exact h.eraseLine extent
  | erasePage extent => exact h.erasePage extent
  | scrollUp n => exact h.withScreen rfl
  | showCursor visible => exact h.congr rfl rfl rfl
  | render r => exact h.render r
  | saveCursor =>
    -- an addressable row is a row of the grid, reserved or not
    have below : t.cursor.y < rows := Nat.lt_of_lt_of_le h.cursor_y t.screen.lines_le
    exact ⟨h.cursor_x, h.cursor_y, h.cursor_x, below⟩
  | restoreCursor => exact h.moveTo _ _

theorem perform (h : t.InBounds) (a : Action) : (t.perform a).InBounds := by
  cases a with
  | none => exact h
  | print code => exact h.putChar code
  | control b =>
    change ((Control.ofByte? b).elim t t.control).InBounds
    cases Control.ofByte? b with
    | none => exact h
    | some c => exact h.control c
  | csi c =>
    change (c.command?.elim t t.run).InBounds
    cases c.command? with
    | none => exact h
    | some command => exact h.run command

theorem interpret (h : t.InBounds) (b : UInt8) : (t.interpret b).InBounds := by
  have fed : { t with parser := (t.parser.feed b).1 }.InBounds := h.congr rfl rfl rfl
  exact fed.perform _

/-! ## Operations -/

theorem lift (h : t.InBounds) : t.lift.InBounds :=
  h.congr rfl rfl t.hasStatus_screen_lift

theorem place (h : t.InBounds) : t.place.InBounds :=
  h.congr rfl rfl t.hasStatus_screen_place

/-- A change to the screen alone matters only through the status flag. -/
theorem editScreen (h : t.InBounds) (change : Screen cols rows → Screen cols rows)
    (hchange : ∀ s, (change s).hasStatus = s.hasStatus) : (t.editScreen change).InBounds :=
  (h.lift.withScreen (hchange t.lift.screen)).place

theorem receive (h : t.InBounds) (b : UInt8) : (t.receive b).InBounds :=
  (h.lift.interpret b).place

theorem print (h : t.InBounds) (bytes : List UInt8) (bell : β) :
    (t.print bytes bell).1.InBounds := by
  rw [fst_print]
  induction bytes generalizing t with
  | nil => exact h
  | cons b bytes ih => exact ih (h.receive b)

theorem reset (h : t.InBounds) : t.reset.InBounds := by
  have cleared := h.lift.clearPage t.lift.colors.text
  -- the saved position goes home too, which is on the grid because the old one was
  have home : { t.lift.clearPage t.lift.colors.text with
      parser := .ground, attrs := t.lift.colors.text, saved := .home }.InBounds :=
    ⟨cleared.cursor_x, cleared.cursor_y, h.cols_pos, Nat.zero_lt_of_lt h.saved_y⟩
  exact home.place

theorem banner (h : t.InBounds) : t.banner.InBounds := by
  -- the identification is written on a page that has just been reset
  have cleared := h.reset
  refine place (congr (place (inBounds_moveTo ?_ ?_ 0 2)) rfl rfl rfl)
  · exact cleared.saved_x
  · exact cleared.saved_y

theorem apply (h : t.InBounds) (settings : Settings) : (t.apply settings).InBounds := by
  refine place (inBounds_moveTo ?_ ?_ _ _)
  · exact h.saved_x
  · exact h.saved_y

theorem setStatusLine (h : t.InBounds) (enabled : Bool) : (t.setStatusLine enabled).InBounds := by
  -- the cursor may be below the rows that are left, so only the saved position counts
  refine place (inBounds_moveTo ?_ ?_ _ _)
  · exact h.saved_x
  · exact h.saved_y

theorem clearWith (h : t.InBounds) (attrs : Attrs) : (t.clearWith attrs).InBounds :=
  (h.lift.clearPage attrs).place

/-- **One operation keeps the bounds.** -/
theorem operate (h : t.InBounds) (op : Operation) (bell : β) :
    (t.operate op bell).1.InBounds := by
  cases op with
  | handle b => exact h.receive b
  | print bytes => exact h.print bytes bell
  | banner => exact h.banner
  | reset => exact h.reset
  | apply settings => exact h.apply settings
  | setPolicy policy => exact h.congr rfl rfl rfl
  | setStatusLine enabled => exact h.setStatusLine enabled
  | writeStatus left right =>
    exact h.editScreen (·.writeStatus left right t.colors.status) fun s =>
      s.hasStatus_writeStatus ..
  | clearWith attrs => exact h.clearWith attrs
  | writeText row col text => exact h.editScreen _ fun s => s.hasStatus_writeText ..
  | writeColored row col attrs text => exact h.editScreen _ fun s => s.hasStatus_writeColored ..
  | drawBox row col width height attrs => exact h.editScreen _ fun s => s.hasStatus_drawBox ..

end InBounds

theorem inBounds_create (settings : Settings) (hc : 0 < cols) (hr : 0 < rows) :
    (create cols rows settings).InBounds :=
  ⟨hc, Screen.lines_pos _ hr, hc, hr⟩

/-- **Every reachable terminal is in bounds**, if its grid has a cell at all. -/
theorem Reachable.inBounds {t : Terminal cols rows} (h : t.Reachable) (hc : 0 < cols)
    (hr : 0 < rows) : t.InBounds := by
  induction h with
  | create settings => exact inBounds_create settings hc hr
  | operate op bell _ ih => exact ih.operate op bell

/-! ## Positions and marker together -/

/-- What holds between any two operations: the positions are in bounds, the
addressable rows are those above a reserved one, and the marker covers the cursor
and nothing else, exactly while the cursor is shown. -/
structure WellPlaced (t : Terminal cols rows) : Prop where
  cursor_lt : t.cursor.x < cols ∧ t.cursor.y < t.lines
  saved_lt : t.saved.x < cols ∧ t.saved.y < rows
  lines_eq : t.lines = if t.screen.hasStatus then rows - 1 else rows
  one_lt_rows : t.screen.hasStatus = true → 1 < rows
  /-- A cell is covered exactly when the cursor is visible. -/
  isSome_under : t.marker.under.isSome = t.cursorVisible
  /-- The covered cell is the one the cursor is on. -/
  eq_cursor_of_under : ∀ pos code, t.marker.under = some (pos, code) → pos = t.cursor
  /-- There the screen shows the marker. -/
  code_at_cursor : t.cursorVisible = true →
    (t.screen.cell? t.cursor.x t.cursor.y).map Glyph.code = some Marker.code

/-- A marker in its place covers a cursor that is in bounds: there is a cell for it
to lie on. -/
theorem InBounds.wellPlaced {t : Terminal cols rows} (h : t.InBounds) (hm : t.MarkerPlaced) :
    t.WellPlaced := by
  have below : t.cursor.y < rows := Nat.lt_of_lt_of_le h.cursor_y t.screen.lines_le
  obtain ⟨g, hg⟩ : ∃ g, t.cell? t.cursor.x t.cursor.y = some g := by
    rw [← Option.isSome_iff_exists, cell?, Option.isSome_map, Screen.isSome_cell?]
    exact ⟨h.cursor_x, below⟩
  have hunder := hm.under_eq
  rw [hg] at hunder
  refine ⟨⟨h.cursor_x, h.cursor_y⟩, ⟨h.saved_x, h.saved_y⟩, rfl, t.screen.one_lt_rows, ?_, ?_, ?_⟩
  · rw [hunder]
    cases t.cursorVisible <;> rfl
  · intro pos code hpos
    rw [hunder] at hpos
    cases hv : t.cursorVisible with
    | false => simp [hv] at hpos
    | true =>
      simp only [hv, if_true, Option.map_some, Option.some.injEq, Prod.mk.injEq] at hpos
      exact hpos.1.symm
  · intro shown
    rw [hm.showsView _ _, hg]
    simp [shown]

/-- **After every operation of every run from a new terminal, the positions are in
bounds and the marker is where the cursor is.** The grid may be of any size that
has a cell, the settings any, and the operations any in any order. -/
theorem wellPlaced_operateAll (hc : 0 < cols) (hr : 0 < rows) (settings : Settings)
    (ops : List Operation) (bell : β) :
    ((create cols rows settings).operateAll ops bell).1.WellPlaced := by
  have new : (create cols rows settings).Reachable := .create settings
  have reached := new.operateAll ops bell
  exact (reached.inBounds hc hr).wellPlaced reached.markerPlaced

/-- A position is saved in the last row, that row is reserved, the position is
restored, and the row is released again under a visible cursor. -/
theorem wellPlaced_saved_under_status :
    0 < 3 ∧ 0 < 2 ∧
      ((create 3 2 { statusLine := false }).operateAll
        [.banner, .print [0x1B, 0x5B, 0x39, 0x3B, 0x39, 0x48], .print [0x1B, 0x5B, 0x73],
          .setStatusLine true, .print [0x1B, 0x5B, 0x75, 0x41, 0x42], .setStatusLine false]
        (⟨0⟩ : Bell.Tally)).1.WellPlaced :=
  ⟨by decide, by decide, wellPlaced_operateAll (by decide) (by decide) _ _ _⟩

end Terminal

end SerialTerminal
