/-
A page that never scrolls.

Paper is as wide as the grid and has no last row. A head moves over it, writes where it
stands and goes one row down at every line feed, and no row ever moves. **A terminal that
is sent plain text shows the end of such a paper**: the rows from the head upwards, as
many as are addressable, or the first ones while the head has not come so far
(`scrolling_is_a_window`).

The rows above the window are those that scrolling has lost. The rows below it have not
been written yet, and that they are blank in the colors of the text is what the row which
opens at the bottom of the page has to agree with. So the relation between the two says
three things (`Terminal.Shows`): where the cursor is, what the page shows, and that the
paper is untouched below both. Only the line feed moves the window.

The comparison is made without the marker, which is no part of the page.
-/
import SerialTerminal.Proofs.Terminal.Isolation

set_option autoImplicit false

namespace SerialTerminal

/-- The bytes of plain text: the characters, and the controls that move within the page. -/
def Ascii.isText (b : UInt8) : Bool :=
  isPrintable b || b == bs || b == ht || b == cr || b == lf

/-! ## Paper -/

/-- A sheet without a last row, and where the next glyph goes. -/
structure Paper where
  /-- The glyph in column `x` of row `y`. -/
  cell : Nat → Nat → Glyph
  head : Cursor

/-- What writing depends on besides the bytes. -/
structure Pen where
  cols : Nat
  policy : LinePolicy
  attrs : Attrs

namespace Paper

/-- Writes a glyph under the head. -/
def put (p : Paper) (g : Glyph) : Paper :=
  { p with cell := fun x y => if x = p.head.x ∧ y = p.head.y then g else p.cell x y }

/-- Moves the head within its row. -/
def column (p : Paper) (x : Nat) : Paper :=
  { p with head := ⟨x, p.head.y⟩ }

/-- Moves the head one row down. There always is one. -/
def nextRow (p : Paper) : Paper :=
  { p with head := ⟨p.head.x, p.head.y + 1⟩ }

/-- A character: written, and the head steps on, wraps or stays. -/
def putChar (pen : Pen) (p : Paper) (code : UInt8) : Paper :=
  let written := p.put (.ofCode code pen.attrs)
  if p.head.x + 1 < pen.cols then written.column (p.head.x + 1)
  else if pen.policy.autowrap then (written.column 0).nextRow
  else written

def backspace (pen : Pen) (p : Paper) : Paper :=
  let back := p.column (p.head.x - 1)
  if pen.policy.backspaceErases then back.put (.blank pen.attrs) else back

def tab (pen : Pen) (p : Paper) : Paper :=
  let next := (p.head.x / Terminal.tabWidth + 1) * Terminal.tabWidth
  if next < pen.cols then p.column next else p

def carriageReturn (pen : Pen) (p : Paper) : Paper :=
  if pen.policy.crImpliesLf then (p.column 0).nextRow else p.column 0

def lineFeed (pen : Pen) (p : Paper) : Paper :=
  if pen.policy.lfImpliesCr then p.nextRow.column 0 else p.nextRow

/-- One byte of plain text. Nothing else is written on paper. -/
def type (pen : Pen) (p : Paper) (b : UInt8) : Paper :=
  if Ascii.isPrintable b then p.putChar pen b
  else
    match b with
    | Ascii.bs => p.backspace pen
    | Ascii.ht => p.tab pen
    | Ascii.cr => p.carriageReturn pen
    | Ascii.lf => p.lineFeed pen
    | _ => p

def typeAll (pen : Pen) (p : Paper) (bytes : List UInt8) : Paper :=
  bytes.foldl (type pen) p

/-- The first row in sight when `lines` rows are: the head is in the last one of them, or
the paper is seen from its first row on. -/
def top (p : Paper) (lines : Nat) : Nat :=
  p.head.y - (lines - 1)

end Paper

namespace Terminal

variable {β : Type} [Bell β] {cols rows : Nat}

/-- What the terminal writes with. -/
def pen (t : Terminal cols rows) : Pen :=
  ⟨cols, t.policy, t.attrs⟩

/-- The page as it is, with blank paper below it and the head at the cursor. -/
def paper (t : Terminal cols rows) : Paper where
  cell x y := if y < t.lines then (t.cell? x y).getD (.blank t.attrs) else .blank t.attrs
  head := t.cursor

/-! ## The window -/

/-- The screen shows the end of the paper. -/
structure Shows (t : Terminal cols rows) (p : Paper) : Prop where
  cursor_x : t.cursor.x = p.head.x
  cursor_y : t.cursor.y = p.head.y - p.top t.lines
  row_eq : ∀ y < t.lines, ∀ x < cols,
    t.screen.cell? x y = some (p.cell x (p.top t.lines + y))
  /-- What is neither in sight nor above it is blank. -/
  untouched : ∀ x y, max p.head.y (t.lines - 1) < y → p.cell x y = .blank t.attrs

namespace Shows

variable {t u : Terminal cols rows} {p : Paper}

theorem congr (h : t.Shows p) (hcursor : u.cursor = t.cursor) (hscreen : u.screen = t.screen)
    (hattrs : u.attrs = t.attrs) : u.Shows p := by
  have hlines : u.lines = t.lines := congrArg Screen.lines hscreen
  refine ⟨?_, ?_, ?_, ?_⟩
  · rw [hcursor]
    exact h.cursor_x
  · rw [hcursor, hlines]
    exact h.cursor_y
  · rw [hscreen, hlines]
    exact h.row_eq
  · rw [hattrs, hlines]
    exact h.untouched

theorem column (h : t.Shows p) (x : Nat) :
    { t with cursor := ⟨x, t.cursor.y⟩ }.Shows (p.column x) :=
  ⟨rfl, h.cursor_y, h.row_eq, h.untouched⟩

/-- The cell under the cursor is the cell under the head. -/
theorem put (h : t.Shows p) (g : Glyph) :
    { t with screen := t.screen.put t.cursor.x t.cursor.y g }.Shows (p.put g) := by
  have hlines : (t.screen.put t.cursor.x t.cursor.y g).lines = t.screen.lines :=
    Screen.lines_congr (Screen.hasStatus_put ..)
  have hx := h.cursor_x
  have hy := h.cursor_y
  have htop : p.top t.lines ≤ p.head.y := Nat.sub_le ..
  refine ⟨hx, ?_, ?_, ?_⟩
  · simp only [lines, hlines]
    exact hy
  · simp only [lines, hlines]
    intro y hline x hcol
    have old : t.screen.cell? x y = some (p.cell x (p.top t.lines + y)) := h.row_eq y hline x hcol
    rw [Screen.cell?_put, old, Option.map_some]
    change _ = some (if x = p.head.x ∧ p.top t.lines + y = p.head.y then g
      else p.cell x (p.top t.lines + y))
    -- shifted by the window's first row, the cursor is the head
    by_cases here : x = t.cursor.x ∧ y = t.cursor.y
    · have same : x = p.head.x ∧ p.top t.lines + y = p.head.y := by omega
      rw [if_pos here, if_pos same]
    · have apart : ¬ (x = p.head.x ∧ p.top t.lines + y = p.head.y) := by omega
      rw [if_neg here, if_neg apart]
  · simp only [lines, hlines]
    intro x y below
    have past : max p.head.y (t.lines - 1) < y := below
    have apart : ¬ (x = p.head.x ∧ y = p.head.y) := by omega
    change (if x = p.head.x ∧ y = p.head.y then g else p.cell x y) = .blank t.attrs
    rw [if_neg apart]
    exact h.untouched x y past

/-- **A line feed moves the head down, and the window after it.** Above the last line the
window stays; in the last line the page scrolls, and the row that opens is the first one
which the paper has below. -/
theorem lineFeed (h : t.Shows p) (some_line : 0 < t.lines) : t.lineFeed.Shows p.nextRow := by
  have hx := h.cursor_x
  have hy := h.cursor_y
  have before : p.top t.lines = p.head.y - (t.lines - 1) := rfl
  have after : p.nextRow.top t.lines = p.head.y + 1 - (t.lines - 1) := rfl
  have fresh : ∀ x y, max (p.head.y + 1) (t.lines - 1) < y → p.cell x y = .blank t.attrs := by
    intro x y below
    exact h.untouched x y (by omega)
  unfold Terminal.lineFeed
  by_cases room : t.cursor.y + 1 < t.lines
  · have still : p.nextRow.top t.lines = p.top t.lines := by omega
    rw [if_pos room]
    refine ⟨hx, ?_, ?_, fresh⟩
    · change t.cursor.y + 1 = p.head.y + 1 - p.nextRow.top t.lines
      omega
    · intro y hline x hcol
      change t.screen.cell? x y = some (p.cell x (p.nextRow.top t.lines + y))
      rw [still]
      exact h.row_eq y hline x hcol
  · have moved : p.nextRow.top t.lines = p.top t.lines + 1 := by omega
    rw [if_neg room]
    refine ⟨hx, ?_, ?_, fresh⟩
    · change t.lines - 1 = p.head.y + 1 - p.nextRow.top t.lines
      omega
    · intro y hline x hcol
      have inside : y < t.lines := hline
      have addressable : ¬ t.screen.lines ≤ y := Nat.not_le.2 inside
      change (t.screen.scrollUp 1 t.attrs).cell? x y = some (p.cell x (p.nextRow.top t.lines + y))
      rw [Screen.cell?_scrollUp, if_neg addressable, moved, Nat.add_right_comm]
      by_cases source : y + 1 < t.screen.lines
      · rw [if_pos source]
        exact h.row_eq (y + 1) source x hcol
      · -- the bottom line takes up what nothing was written on yet
        have bottom : max p.head.y (t.lines - 1) < p.top t.lines + y + 1 := by
          have last : ¬ y + 1 < t.lines := source
          omega
        rw [if_neg source, h.row_eq y inside x hcol, h.untouched x _ bottom, Option.map_some]

/-- Where terminal and paper decide alike, each way may be looked at by itself. -/
theorem ite {c : Prop} [Decidable c] {q : Paper} (yes : c → t.Shows p) (no : ¬ c → u.Shows q) :
    (if c then t else u).Shows (if c then p else q) := by
  by_cases hc : c
  · rw [if_pos hc, if_pos hc]
    exact yes hc
  · rw [if_neg hc, if_neg hc]
    exact no hc

/-! ## Bytes of text -/

theorem putChar (h : t.Shows p) (some_line : 0 < t.lines) (code : UInt8) :
    (t.putChar code).Shows (p.putChar t.pen code) := by
  have drawn := h.put (.ofCode code t.attrs)
  have some_line' : 0 < (t.screen.put t.cursor.x t.cursor.y (.ofCode code t.attrs)).lines := by
    rw [Screen.lines_congr (Screen.hasStatus_put ..)]
    exact some_line
  unfold Terminal.putChar Paper.putChar
  dsimp only
  rw [← h.cursor_x]
  apply ite
  · intro _
    exact drawn.column (t.cursor.x + 1)
  · intro _
    apply ite
    · intro _
      exact (drawn.column 0).lineFeed some_line'
    · intro _
      exact drawn

theorem backspace (h : t.Shows p) : t.backspace.Shows (p.backspace t.pen) := by
  have moved := h.column (t.cursor.x - 1)
  unfold Terminal.backspace Paper.backspace
  dsimp only
  rw [← h.cursor_x]
  apply ite
  · intro _
    exact moved.put (.blank t.attrs)
  · intro _
    exact moved

theorem tab (h : t.Shows p) : t.tab.Shows (p.tab t.pen) := by
  unfold Terminal.tab Paper.tab
  dsimp only
  rw [← h.cursor_x]
  apply ite
  · intro _
    exact h.column _
  · intro _
    exact h

theorem carriageReturn (h : t.Shows p) (some_line : 0 < t.lines) :
    (t.control .carriageReturn).Shows (p.carriageReturn t.pen) := by
  have returned := h.column 0
  unfold Terminal.control Paper.carriageReturn
  apply ite
  · intro _
    exact returned.lineFeed some_line
  · intro _
    exact returned

theorem controlLineFeed (h : t.Shows p) (some_line : 0 < t.lines) :
    (t.control .lineFeed).Shows (p.lineFeed t.pen) := by
  have fed := h.lineFeed some_line
  have kept : t.lineFeed.policy = t.policy := congrArg Setup.policy t.setup_lineFeed
  unfold Terminal.control Paper.lineFeed
  dsimp only
  rw [kept]
  apply ite
  · intro _
    exact fed.column 0
  · intro _
    exact fed

end Shows

/-! ## One byte -/

section Text

variable (t : Terminal cols rows)

/-- **What a byte of text does outside a sequence.** -/
theorem interpret_cases (ground : t.parser = .ground) {b : UInt8} (text : Ascii.isText b = true) :
    (Ascii.isPrintable b = true ∧ t.interpret b = t.putChar b) ∨
      (b = Ascii.bs ∧ t.interpret b = t.backspace) ∨
      (b = Ascii.ht ∧ t.interpret b = t.tab) ∨
      (b = Ascii.cr ∧ t.interpret b = t.control .carriageReturn) ∨
      (b = Ascii.lf ∧ t.interpret b = t.control .lineFeed) := by
  have unchanged : { t with parser := .ground } = t := by
    rw [← ground]
  have step : ∀ a, Parser.ground.feed b = (.ground, a) → t.interpret b = t.perform a := by
    intro a fed
    rw [interpret, ground, fed, unchanged]
  by_cases printable : Ascii.isPrintable b = true
  · have notEsc : b ≠ Ascii.esc := by
      rintro rfl
      exact absurd printable (by decide)
    refine .inl ⟨printable, step (.print b) ?_⟩
    simp [Parser.feed, Parser.readGround, notEsc, printable]
  · simp only [Ascii.isText, printable, Bool.false_or, Bool.or_eq_true, beq_iff_eq] at text
    rcases text with ((rfl | rfl) | rfl) | rfl
    · exact .inr (.inl ⟨rfl, step (.control _) rfl⟩)
    · exact .inr (.inr (.inl ⟨rfl, step (.control _) rfl⟩))
    · exact .inr (.inr (.inr (.inl ⟨rfl, step (.control _) rfl⟩)))
    · exact .inr (.inr (.inr (.inr ⟨rfl, step (.control _) rfl⟩)))

/-- Text changes the screen and moves the cursor, and does nothing else. -/
theorem exists_interpret (ground : t.parser = .ground) {b : UInt8}
    (text : Ascii.isText b = true) :
    ∃ screen cursor, t.interpret b = { t with screen, cursor } := by
  rcases t.interpret_cases ground text with ⟨-, same⟩ | ⟨-, same⟩ | ⟨-, same⟩ | ⟨-, same⟩ |
    ⟨-, same⟩
  · rw [same]
    exact t.exists_putChar b
  · rw [same]
    exact t.exists_control .backspace
  · rw [same]
    exact t.exists_control .tab
  · rw [same]
    exact t.exists_control .carriageReturn
  · rw [same]
    exact t.exists_control .lineFeed

end Text

/-- **The relation is kept by every byte of text.** -/
theorem Shows.interpret {t : Terminal cols rows} {p : Paper} (h : t.Shows p)
    (some_line : 0 < t.lines) (ground : t.parser = .ground) {b : UInt8}
    (text : Ascii.isText b = true) : (t.interpret b).Shows (p.type t.pen b) := by
  rcases t.interpret_cases ground text with ⟨printable, same⟩ | ⟨rfl, same⟩ | ⟨rfl, same⟩ |
    ⟨rfl, same⟩ | ⟨rfl, same⟩
  · have typed : p.type t.pen b = p.putChar t.pen b := if_pos printable
    rw [same, typed]
    exact h.putChar some_line b
  · rw [same]
    exact h.backspace
  · rw [same]
    exact h.tab
  · rw [same]
    exact h.carriageReturn some_line
  · rw [same]
    exact h.controlLineFeed some_line

/-! ## A run of bytes -/

theorem lines_bare (t : Terminal cols rows) : t.bare.lines = t.lines :=
  Screen.lines_congr t.hasStatus_screen_bare

/-- What a paper that is laid under the page shows. -/
theorem some_cell_paper (t : Terminal cols rows) {x : Nat} (hx : x < cols) (y : Nat) :
    some (t.paper.cell x y) = if y < t.lines then t.cell? x y else some (.blank t.attrs) := by
  simp only [paper]
  by_cases inside : y < t.lines
  · have below : y < rows := Nat.lt_of_lt_of_le inside t.screen.lines_le
    have isSome : (t.cell? x y).isSome := by
      rw [cell?, Option.isSome_map, Screen.isSome_cell?]
      exact ⟨hx, below⟩
    rw [if_pos inside, if_pos inside, Option.eq_some_of_isSome isSome, Option.getD_some]
  · rw [if_neg inside, if_neg inside]

/-- The page is the beginning of the paper that is laid under it. -/
theorem shows_paper {t : Terminal cols rows} (h : t.InBounds) : t.bare.Shows t.paper := by
  have inside := h.cursor_y
  have first : t.paper.top t.lines = 0 := by
    change t.cursor.y - (t.lines - 1) = 0
    omega
  refine ⟨rfl, ?_, ?_, ?_⟩
  · rw [lines_bare, first]
    rfl
  · intro y hline x hcol
    rw [lines_bare] at hline ⊢
    rw [cell?_screen_bare, first, Nat.zero_add, t.some_cell_paper hcol, if_pos hline]
  · intro x y below
    rw [lines_bare] at below
    have out : ¬ y < t.lines := by omega
    simp only [paper, if_neg out]
    rfl

section Bare

variable {t : Terminal cols rows} {p : Paper}

theorem Shows.cursor_eq (h : t.bare.Shows p) :
    t.cursor = ⟨p.head.x, p.head.y - p.top t.lines⟩ := by
  have hx : t.cursor.x = p.head.x := h.cursor_x
  have hy : t.cursor.y = p.head.y - p.top t.bare.lines := h.cursor_y
  rw [lines_bare] at hy
  change (⟨t.cursor.x, t.cursor.y⟩ : Cursor) = _
  rw [hx, hy]

theorem Shows.cell?_eq (h : t.bare.Shows p) {x y : Nat} (hx : x < cols) (hy : y < t.lines) :
    t.cell? x y = some (p.cell x (p.top t.lines + y)) := by
  rw [← lines_bare] at hy ⊢
  rw [← h.row_eq y hy x hx, cell?_screen_bare]

end Bare

theorem kept_receive (t : Terminal cols rows) (ground : t.parser = .ground) {b : UInt8}
    (text : Ascii.isText b = true) :
    (t.receive b).attrs = t.attrs ∧ (t.receive b).saved = t.saved ∧
      (t.receive b).parser = t.parser ∧ (t.receive b).policy = t.policy := by
  -- the bare terminal has everything but the marker, so its frame is that of the terminal
  have received : (t.receive b).bare = (t.bare.interpret b).withMarker {} :=
    bare_edit (markerBlind_interpret b) t
  obtain ⟨screen, cursor, frame⟩ := t.bare.exists_interpret ground text
  rw [frame] at received
  change (t.receive b).bare.attrs = t.attrs ∧ (t.receive b).bare.saved = t.saved ∧
    (t.receive b).bare.parser = t.parser ∧ (t.receive b).bare.policy = t.policy
  rw [received]
  exact ⟨rfl, rfl, rfl, rfl⟩

/-- Terminal and paper take the same bytes; meanwhile nothing changes that the writing
depends on. -/
theorem shows_print {t : Terminal cols rows} {p : Paper} (h : t.bare.Shows p)
    (some_line : 0 < t.lines) (ground : t.parser = .ground) {bytes : List UInt8}
    (text : ∀ b ∈ bytes, Ascii.isText b = true) (bell : β) :
    let u := (t.print bytes bell).1
    u.bare.Shows (p.typeAll t.pen bytes) ∧ u.attrs = t.attrs ∧ u.saved = t.saved := by
  induction bytes generalizing t p bell with
  | nil => exact ⟨h, rfl, rfl⟩
  | cons b bytes ih =>
    obtain ⟨here, later⟩ := List.forall_mem_cons.1 text
    have received : (t.receive b).bare = (t.bare.interpret b).withMarker {} :=
      bare_edit (markerBlind_interpret b) t
    have shown : (t.receive b).bare.Shows (p.type t.pen b) := by
      rw [received]
      refine Shows.congr (Shows.interpret h ?_ ground here) rfl rfl rfl
      rw [lines_bare]
      exact some_line
    obtain ⟨attrs, saved, parser, policy⟩ := t.kept_receive ground here
    have pen : (t.receive b).pen = t.pen := by
      rw [Terminal.pen, attrs, policy]
      rfl
    have still : 0 < (t.receive b).lines := by
      rw [lines, Screen.lines_congr (congrArg Setup.statusLine (t.setup_receive b))]
      exact some_line
    have rest := ih shown still (parser.trans ground) later
      (if t.rings b then Bell.ring bell else bell)
    rw [pen, attrs, saved] at rest
    exact rest

/-- **Scrolling is only a window.** A terminal takes plain text as paper without a last
row takes it, under every line policy and on every grid. Afterwards the page is that part
of the paper which ends at the head's row, or its first part if the head has stayed
within it; the cursor is at the head; and the colors, the saved position and the status
row are what they were. -/
theorem scrolling_is_a_window (hc : 0 < cols) (hr : 0 < rows) {t : Terminal cols rows}
    (h : t.Reachable) (ground : t.parser = .ground) {bytes : List UInt8}
    (text : ∀ b ∈ bytes, Ascii.isText b = true) (bell : β) :
    let u := (t.print bytes bell).1
    let p := t.paper.typeAll t.pen bytes
    let top := p.head.y - (t.lines - 1)
    u.cursor = ⟨p.head.x, p.head.y - top⟩ ∧
      (∀ y < t.lines, ∀ x < cols, u.cell? x y = some (p.cell x (top + y))) ∧
      u.lines = t.lines ∧ u.attrs = t.attrs ∧ u.saved = t.saved ∧
      u.screen.hasStatus = t.screen.hasStatus ∧
      (t.screen.hasStatus = true → ∀ x,
        u.cell? x (rows - 1) = t.cell? x (rows - 1) ∧
          u.screen.cell? x (rows - 1) = t.screen.cell? x (rows - 1)) := by
  intro u p top
  have bounds := h.inBounds hc hr
  obtain ⟨shown, attrs, saved⟩ := shows_print (shows_paper bounds) bounds.lines_pos ground text bell
  have status : u.screen.hasStatus = t.screen.hasStatus :=
    congrArg Setup.statusLine (t.setup_print bytes bell)
  have hlines : u.lines = t.lines := Screen.lines_congr status
  refine ⟨?_, ?_, hlines, attrs, saved, status, ?_⟩
  · rw [shown.cursor_eq, hlines]
    rfl
  · intro y hline x hcol
    rw [← hlines] at hline
    rw [shown.cell?_eq hcol hline, hlines]
    rfl
  · intro reserved x
    exact ⟨h.cell?_print_last_row reserved bytes bell x,
      h.screen_print_last_row reserved bytes bell x⟩

/-- Two lines above a status row. Text wraps twice, a line feed ends the third line, and
after a letter that is erased again a tab finds no stop. The paper has come to its fourth
row, and what is in sight begins with its third. -/
theorem scrolling_is_a_window_after_wraps :
    let t := ((create 3 3 { policy := { backspaceErases := true, lfImpliesCr := true } }).operateAll
      [.writeStatus [0x4C] [0x4E], .print [0x78]] (⟨0⟩ : Bell.Tally)).1
    let bytes := [0x41, 0x42, 0x43, 0x44, 0x45, 0x46, 0x0A, 0x47, 0x48, 0x08, 0x09]
    let p := t.paper.typeAll t.pen bytes
    t.Reachable ∧ t.parser = .ground ∧ (∀ b ∈ bytes, Ascii.isText b = true) ∧
      p.head = ⟨1, 3⟩ ∧ (t.print bytes (⟨0⟩ : Bell.Tally)).1.cursor = ⟨1, 1⟩ ∧
      (t.print bytes (⟨0⟩ : Bell.Tally)).1.cell? 0 0 = some ⟨0x46, .semiBlue, .white⟩ ∧
      (t.print bytes (⟨0⟩ : Bell.Tally)).1.cell? 1 1 = some (.blank t.attrs) := by
  intro t bytes p
  have reached : t.Reachable := (Reachable.create _).operateAll _ _
  have ground : t.parser = .ground := by decide +kernel
  have text : ∀ b ∈ bytes, Ascii.isText b = true := by decide +kernel
  obtain ⟨cursor, cells, -⟩ := scrolling_is_a_window (by decide) (by decide) reached ground text
    (⟨0⟩ : Bell.Tally)
  refine ⟨reached, ground, text, by decide +kernel, ?_, ?_, ?_⟩
  · rw [cursor]
    decide +kernel
  · rw [cells 0 (by decide +kernel) 0 (by decide)]
    decide +kernel
  · rw [cells 1 (by decide +kernel) 1 (by decide)]
    decide +kernel

end Terminal

end SerialTerminal
