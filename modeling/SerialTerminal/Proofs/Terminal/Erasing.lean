/-
Erasing.

An erase blanks part of the cursor's row or part of the page in the colors being written, and
its first number says which part: what lies from the cursor on, what lies up to it, or all of
it. On the page this goes by reading order, row by row and within a row from left to right.
**Nothing but this part changes** (`erases_exactly`).

Reading order is linear, and the cell of the cursor lies in both parts. So the two parts make
up the whole, in whichever order they are erased. A whole page that is erased takes the cursor
home, and is then the page that a form feed leaves.

No part reaches past the addressable rows, so the status row is safe.
-/
import Mathlib.Data.Prod.Lex
import SerialTerminal.Proofs.Terminal.Sequence

set_option autoImplicit false

namespace SerialTerminal

/-! ## Regions -/

namespace Region

/-- Where a cell stands in reading order: by rows, and within a row by columns. -/
def reading (x y : Nat) : Nat ×ₗ Nat :=
  toLex (y, x)

theorem reading_le_iff (x y x' y' : Nat) :
    reading x y ≤ reading x' y' ↔ y < y' ∨ y = y' ∧ x ≤ x' :=
  Prod.Lex.toLex_le_toLex

/-- The part of the cursor's row that an erase in line is about, by its first number. -/
def ofLine (cursor : Cursor) : Nat → Region
  | 0 => fun x y => y = cursor.y ∧ cursor.x ≤ x
  | 1 => fun x y => y = cursor.y ∧ x ≤ cursor.x
  | 2 => fun _ y => y = cursor.y
  | _ => fun _ _ => false

/-- The part of the first `lines` rows that an erase in page is about, by its first number. -/
def ofPage (lines : Nat) (cursor : Cursor) : Nat → Region
  | 0 => fun x y => y < lines ∧ reading cursor.x cursor.y ≤ reading x y
  | 1 => fun x y => y < lines ∧ reading x y ≤ reading cursor.x cursor.y
  | 2 => fun _ y => y < lines
  | 3 => fun _ y => y < lines
  | _ => fun _ _ => false

/-- The cells of either region. -/
def union (r s : Region) : Region := fun x y => r x y || s x y

theorem union_comm (r s : Region) : r.union s = s.union r := by
  funext x y
  exact Bool.or_comm (r x y) (s x y)

/-- Columns are linearly ordered, so the two parts of a row are all of it. -/
theorem ofLine_union (cursor : Cursor) :
    (ofLine cursor 0).union (ofLine cursor 1) = ofLine cursor 2 := by
  funext x y
  have total := Nat.le_total cursor.x x
  simp only [union, ofLine, ← Bool.decide_or, decide_eq_decide, ← and_or_left]
  exact and_iff_left total

/-- And so is reading order, for the page. -/
theorem ofPage_union (lines : Nat) (cursor : Cursor) :
    (ofPage lines cursor 0).union (ofPage lines cursor 1) = ofPage lines cursor 2 := by
  funext x y
  have total := le_total (reading cursor.x cursor.y) (reading x y)
  simp only [union, ofPage, ← Bool.decide_or, decide_eq_decide, ← and_or_left]
  exact and_iff_left total

/-! ### What the screen erases -/

theorem lineFrom_eq_ofLine (x y : Nat) : lineFrom x y = ofLine ⟨x, y⟩ 0 := by
  funext cx cy
  rw [Bool.eq_iff_iff]
  simp only [lineFrom, ofLine, Bool.and_eq_true, decide_eq_true_eq, beq_iff_eq]

theorem lineTo_eq_ofLine (x y : Nat) : lineTo x y = ofLine ⟨x, y⟩ 1 := by
  funext cx cy
  rw [Bool.eq_iff_iff]
  simp only [lineTo, ofLine, Bool.and_eq_true, decide_eq_true_eq, beq_iff_eq]

theorem below_eq_ofPage (lines x y : Nat) : below lines x y = ofPage lines ⟨x, y⟩ 0 := by
  funext cx cy
  rw [Bool.eq_iff_iff]
  simp only [below, lineFrom, ofPage, reading_le_iff, Bool.and_eq_true, Bool.or_eq_true,
    decide_eq_true_eq, beq_iff_eq]
  omega

/-- From a row that is addressable. -/
theorem above_eq_ofPage {lines y : Nat} (inside : y < lines) (x : Nat) :
    above lines x y = ofPage lines ⟨x, y⟩ 1 := by
  funext cx cy
  rw [Bool.eq_iff_iff]
  simp only [above, lineTo, ofPage, reading_le_iff, Bool.and_eq_true, Bool.or_eq_true,
    decide_eq_true_eq, beq_iff_eq]
  omega

end Region

namespace Terminal

variable {cols rows : Nat} {t u : Terminal cols rows}

/-! ## Blanking -/

/-- The logical view with a region blanked in the colors being written. -/
def blanked (t : Terminal cols rows) (region : Region) (x y : Nat) : Option Glyph :=
  if region x y then (t.cell? x y).map fun _ => .blank t.attrs else t.cell? x y

/-- Erasing with the marker off the screen is blanking the view. On a grid without cells it does
not matter which region it is. -/
theorem cell?_erase_lift (t : Terminal cols rows) {region region' : Region}
    (same : 0 < cols → 0 < rows → region = region') (x y : Nat) :
    (t.lift.screen.erase region t.attrs).cell? x y = t.blanked region' x y := by
  rw [Screen.cell?_erase, cell?_screen_lift, blanked]
  -- a cell that is there shows that the grid has columns and rows
  by_cases there : x < cols ∧ y < rows
  · rw [same (Nat.zero_lt_of_lt there.1) (Nat.zero_lt_of_lt there.2)]
  · have gone : t.cell? x y = none := by
      rw [cell?, (Screen.cell?_eq_none_iff t.screen x y).2 there]
      rfl
    rw [gone, Option.map_none, ite_self, ite_self]

theorem blanked_none (t : Terminal cols rows) (x y : Nat) :
    t.blanked (fun _ _ => false) x y = t.cell? x y :=
  if_neg Bool.false_ne_true

/-- Two regions one after the other are blanked together. -/
theorem Becomes.blanked {region : Region} {cursor : Cursor}
    (first : t.Becomes u (t.blanked region) cursor) (region' : Region) (x y : Nat) :
    u.blanked region' x y = t.blanked (region.union region') x y := by
  rw [Terminal.blanked, first.cell?_eq, first.attrs_eq, Terminal.blanked, Terminal.blanked,
    Region.union]
  cases region x y with
  | false => cases region' x y <;> rfl
  | true =>
    cases region' x y with
    | false => rfl
    | true => simp only [if_true, Bool.or_self, Option.map_map, Function.comp_def]

/-! ## The sequences -/

section Sequences

variable {p : Nat} {body : List UInt8}

/-- A command that erases a region and may move the cursor. -/
theorem yields_erase {final : UInt8} {command : Command} {region region' : Region}
    {cursor : Cursor} (h : t.Reachable) (ground : t.parser = .ground) (hbody : Csi.IsBody body)
    (hfinal : 0x40 ≤ final ∧ final ≤ 0x7D)
    (asks : (Csi.ofBytes body final).command? = some command)
    (done : t.lift.run command =
      { t.lift with screen := t.lift.screen.erase region t.attrs, cursor })
    (same : 0 < cols → 0 < rows → region = region') :
    t.Yields (Csi.bytes body final) (t.blanked region') cursor := by
  have status : (t.lift.screen.erase region t.attrs).hasStatus = t.screen.hasStatus :=
    t.hasStatus_screen_lift
  exact yields_of_command h.markerPlaced ground hbody hfinal asks status done
    (t.cell?_erase_lift same)

/-- A number without a meaning erases nothing. -/
theorem yields_blanked_none {final : UInt8} (h : t.Reachable) (ground : t.parser = .ground)
    (hbody : Csi.IsBody body) (hfinal : 0x40 ≤ final ∧ final ≤ 0x7D)
    (asks : (Csi.ofBytes body final).command? = none) :
    t.Yields (Csi.bytes body final) (t.blanked fun _ _ => false) t.cursor := by
  have kept : t.blanked (fun _ _ => false) = t.cell? := by
    funext x y
    exact t.blanked_none x y
  rw [kept]
  exact yields_of_no_command h.markerPlaced ground hbody hfinal asks

theorem yields_eraseLine (h : t.Reachable) (ground : t.parser = .ground)
    (first : Csi.FirstIs p body) :
    t.Yields (Csi.bytes body 0x4B) (t.blanked (.ofLine t.cursor p)) t.cursor := by
  have hbody := first.isBody
  have asked : (Csi.ofBytes body 0x4B).command? =
      (Csi.ofBytes body 0x4B).lineExtent?.map .eraseLine := rfl
  rw [Csi.lineExtent?] at asked
  -- the numbers that mean something one by one, and all the others at once
  rcases p with _ | _ | _ | p
  · rw [first.param_eq 0x4B (by decide)] at asked
    refine yields_erase h ground hbody (by decide) asked rfl fun _ _ => ?_
    exact Region.lineFrom_eq_ofLine t.cursor.x t.cursor.y
  · rw [first.param_eq 0x4B (by decide)] at asked
    refine yields_erase h ground hbody (by decide) asked rfl fun _ _ => ?_
    exact Region.lineTo_eq_ofLine t.cursor.x t.cursor.y
  · rw [first.param_eq 0x4B (by decide)] at asked
    exact yields_erase h ground hbody (by decide) asked rfl fun _ _ => rfl
  · obtain ⟨m, param⟩ := first.exists_param_eq_add 3 0x4B (by decide)
    rw [param] at asked
    exact yields_blanked_none h ground hbody (by decide) asked

/-- Only when all of the page goes does the cursor go home. -/
theorem yields_erasePage (h : t.Reachable) (ground : t.parser = .ground)
    (first : Csi.FirstIs p body) :
    t.Yields (Csi.bytes body 0x4A) (t.blanked (.ofPage t.lines t.cursor p))
      (if p = 2 ∨ p = 3 then .home else t.cursor) := by
  have hbody := first.isBody
  have asked : (Csi.ofBytes body 0x4A).command? =
      (Csi.ofBytes body 0x4A).pageExtent?.map .erasePage := rfl
  rw [Csi.pageExtent?] at asked
  rw [← lines_lift]
  rcases p with _ | _ | _ | _ | p
  · rw [first.param_eq 0x4A (by decide)] at asked
    refine yields_erase h ground hbody (by decide) asked rfl fun _ _ => ?_
    exact Region.below_eq_ofPage t.lift.lines t.cursor.x t.cursor.y
  · rw [first.param_eq 0x4A (by decide)] at asked
    refine yields_erase h ground hbody (by decide) asked rfl fun hc hr => ?_
    -- the row that an erase to the start ends in is brought up, unless it is addressable
    have inside : t.cursor.y < t.lift.lines := (h.inBounds hc hr).lift.cursor_y
    exact Region.above_eq_ofPage inside t.cursor.x
  · rw [first.param_eq 0x4A (by decide)] at asked
    exact yields_erase h ground hbody (by decide) asked rfl fun _ _ => rfl
  · rw [first.param_eq 0x4A (by decide)] at asked
    exact yields_erase h ground hbody (by decide) asked rfl fun _ _ => rfl
  · obtain ⟨m, param⟩ := first.exists_param_eq_add 4 0x4A (by decide)
    rw [param] at asked
    have neither : ¬ (p + 4 = 2 ∨ p + 4 = 3) := by omega
    rw [if_neg neither]
    exact yields_blanked_none h ground hbody (by decide) asked

/-- A form feed is a whole page erased. -/
theorem yields_formFeed (ground : t.parser = .ground) :
    t.Yields [Ascii.ff] (t.blanked (.ofPage t.lines t.cursor 2)) .home := by
  intro β _ bell
  refine ⟨_, print_control ground (by decide) (by decide) (by decide) bell, ?_⟩
  have status : (t.lift.screen.clear t.attrs).hasStatus = t.screen.hasStatus :=
    t.hasStatus_screen_lift
  rw [← lines_lift]
  exact (t.becomes_place status .home).of_cells (t.cell?_erase_lift fun _ _ => rfl)

/-! ## One part after the other -/

section Parts

variable {q : Nat} {as bs body' : List UInt8} {region region' : Region}

/-- If the first run blanks a region and the second one another, they blank both. -/
theorem Yields.append_blanked (first : t.Yields as (t.blanked region) t.cursor) (h : t.Reachable)
    (next : ∀ u : Terminal cols rows, u.Reachable → t.Becomes u (t.blanked region) t.cursor →
      u.Yields bs (u.blanked region') t.cursor) :
    t.Yields (as ++ bs) (t.blanked (region.union region')) t.cursor := by
  refine first.append h ?_
  intro u reached becomes
  have cells : u.blanked region' = t.blanked (region.union region') := by
    funext x y
    exact becomes.blanked region' x y
  rw [← cells]
  exact next u reached becomes

theorem yields_eraseLine_twice (h : t.Reachable) (ground : t.parser = .ground)
    (first : Csi.FirstIs p body) (next : Csi.FirstIs q body') :
    t.Yields (Csi.bytes body 0x4B ++ Csi.bytes body' 0x4B)
      (t.blanked ((Region.ofLine t.cursor p).union (.ofLine t.cursor q))) t.cursor := by
  refine (yields_eraseLine h ground first).append_blanked h ?_
  intro u reached becomes
  have second := yields_eraseLine reached (becomes.parser_eq.trans ground) next
  rw [becomes.cursor_eq] at second
  exact second

/-- The cursor stays where it is, so both parts are seen from the same cell. -/
theorem yields_erasePage_twice (h : t.Reachable) (ground : t.parser = .ground)
    (first : Csi.FirstIs p body) (next : Csi.FirstIs q body') (hp : p < 2) (hq : q < 2) :
    t.Yields (Csi.bytes body 0x4A ++ Csi.bytes body' 0x4A)
      (t.blanked ((Region.ofPage t.lines t.cursor p).union (.ofPage t.lines t.cursor q)))
      t.cursor := by
  have erased := yields_erasePage h ground first
  -- neither part is the whole page, which would take the cursor home
  rw [if_neg (by omega)] at erased
  refine erased.append_blanked h ?_
  intro u reached becomes
  have second := yields_erasePage reached (becomes.parser_eq.trans ground) next
  have lines : u.lines = t.lines := Screen.lines_congr becomes.hasStatus_eq
  rw [if_neg (by omega), lines, becomes.cursor_eq] at second
  exact second

end Parts

end Sequences

/-! ## Erasing as it is promised -/

/-- What a terminal does when it is asked to erase. -/
structure ErasesExactly (t : Terminal cols rows) : Prop where
  /-- An erase in line blanks its part of the cursor's row. -/
  line : ∀ {p body}, Csi.FirstIs p body →
    t.Yields (Csi.bytes body 0x4B) (t.blanked (.ofLine t.cursor p)) t.cursor
  /-- An erase in page blanks its part of the addressable cells. The cursor goes home if all
  of them go. -/
  page : ∀ {p body}, Csi.FirstIs p body →
    t.Yields (Csi.bytes body 0x4A) (t.blanked (.ofPage t.lines t.cursor p))
      (if p = 2 ∨ p = 3 then .home else t.cursor)
  /-- A form feed blanks all of them. -/
  formFeed : t.Yields [Ascii.ff] (t.blanked (.ofPage t.lines t.cursor 2)) .home
  /-- To the end and to the start of the line, or the other way around, is the line. -/
  line_parts : ∀ {toEnd toStart whole}, Csi.FirstIs 0 toEnd → Csi.FirstIs 1 toStart →
    Csi.FirstIs 2 whole → ∀ (β : Type) [Bell β] (bell : β),
      t.print (Csi.bytes toEnd 0x4B ++ Csi.bytes toStart 0x4B) bell =
        t.print (Csi.bytes whole 0x4B) bell ∧
      t.print (Csi.bytes toStart 0x4B ++ Csi.bytes toEnd 0x4B) bell =
        t.print (Csi.bytes whole 0x4B) bell
  /-- The cells of the page are the same, too, while only a whole page moves the cursor. -/
  page_parts : ∀ {toEnd toStart whole}, Csi.FirstIs 0 toEnd → Csi.FirstIs 1 toStart →
    Csi.FirstIs 2 whole → ∀ (β : Type) [Bell β] (bell : β) (x y : Nat),
      (t.print (Csi.bytes toEnd 0x4A ++ Csi.bytes toStart 0x4A) bell).1.cell? x y =
        (t.print (Csi.bytes whole 0x4A) bell).1.cell? x y ∧
      (t.print (Csi.bytes toStart 0x4A ++ Csi.bytes toEnd 0x4A) bell).1.cell? x y =
        (t.print (Csi.bytes whole 0x4A) bell).1.cell? x y
  /-- There are three ways to erase the page, and they are one. -/
  whole_page : ∀ {p body}, Csi.FirstIs p body → p = 2 ∨ p = 3 →
    ∀ (β : Type) [Bell β] (bell : β),
      t.print (Csi.bytes body 0x4A) bell = t.print [Ascii.ff] bell
  /-- The status row stays as it is written and as it is displayed, which no bytes change. -/
  status_row : t.screen.hasStatus = true → ∀ (bytes : List UInt8) (β : Type) [Bell β] (bell : β)
    (x : Nat), (t.print bytes bell).1.cell? x (rows - 1) = t.cell? x (rows - 1) ∧
      (t.print bytes bell).1.screen.cell? x (rows - 1) = t.screen.cell? x (rows - 1)

/-- **Erasing touches its region and nothing else**, on every terminal outside a sequence. -/
theorem erases_exactly {t : Terminal cols rows} (h : t.Reachable) (ground : t.parser = .ground) :
    t.ErasesExactly where
  line := yields_eraseLine h ground
  page := yields_erasePage h ground
  formFeed := yields_formFeed ground
  line_parts := by
    intro toEnd toStart whole hend hstart hwhole β _ bell
    have all := yields_eraseLine h ground hwhole
    have forth := yields_eraseLine_twice h ground hend hstart
    have back := yields_eraseLine_twice h ground hstart hend
    rw [Region.union_comm, Region.ofLine_union] at back
    rw [Region.ofLine_union] at forth
    exact ⟨forth.print_eq all h.markerPlaced bell, back.print_eq all h.markerPlaced bell⟩
  page_parts := by
    intro toEnd toStart whole hend hstart hwhole β _ bell x y
    have all := yields_erasePage h ground hwhole
    have forth := yields_erasePage_twice h ground hend hstart (by decide) (by decide)
    have back := yields_erasePage_twice h ground hstart hend (by decide) (by decide)
    rw [Region.union_comm, Region.ofPage_union] at back
    rw [Region.ofPage_union] at forth
    rw [forth.cell?_print, back.cell?_print, all.cell?_print]
    exact ⟨rfl, rfl⟩
  whole_page := by
    intro p body first whole β _ bell
    have erased := yields_erasePage h ground first
    rw [if_pos whole] at erased
    refine Yields.print_eq erased ?_ h.markerPlaced bell
    rcases whole with rfl | rfl
    · exact yields_formFeed ground
    · exact yields_formFeed ground
  status_row := by
    intro reserved bytes β _ bell x
    exact ⟨h.cell?_print_last_row reserved bytes bell x,
      h.screen_print_last_row reserved bytes bell x⟩

/-- A page of letters with the shown cursor on the sixth of twelve cells, above the status row.
To the end, the fifth letter stays and the sixth goes; to the start, the sixth goes and the
seventh stays; and after both, all are gone but the status row. -/
theorem erases_exactly_around_the_cursor :
    let t := ((create 4 4 {}).operateAll [.banner, .writeStatus [0x53] [],
      .print (Csi.bytes [] 0x48 ++ [0x41, 0x42, 0x43, 0x44, 0x45, 0x46, 0x47, 0x48, 0x49, 0x4A] ++
        Csi.bytes [0x32, 0x3B, 0x32] 0x48)] (⟨0⟩ : Bell.Tally)).1
    let code := fun bytes x y => ((t.print bytes (⟨0⟩ : Bell.Tally)).1.cell? x y).map Glyph.code
    (t.Reachable ∧ t.parser = .ground ∧ t.cursor = ⟨1, 1⟩ ∧ t.cursorVisible = true) ∧
      (Csi.FirstIs 0 [] ∧ Csi.FirstIs 1 [0x31] ∧ Csi.FirstIs 2 [0x32]) ∧
      (code (Csi.bytes [] 0x4A) 0 1 = some 0x45 ∧ code (Csi.bytes [] 0x4A) 1 1 = some 0x20) ∧
      (code (Csi.bytes [0x31] 0x4A) 1 1 = some 0x20 ∧
        code (Csi.bytes [0x31] 0x4A) 2 1 = some 0x47) ∧
      code (Csi.bytes [] 0x4A ++ Csi.bytes [0x31] 0x4A) 0 2 = some 0x20 ∧
      code (Csi.bytes [0x32] 0x4A) 0 3 = some 0x53 := by
  intro t code
  have reached : t.Reachable := (Reachable.create _).operateAll _ _
  have ground : t.parser = .ground := by decide +kernel
  have cursor : t.cursor = ⟨1, 1⟩ := by decide +kernel
  have shown : t.cursorVisible = true := by decide +kernel
  have reserved : t.screen.hasStatus = true := by decide +kernel
  have toEnd : Csi.FirstIs 0 [] := ⟨by decide, by decide⟩
  have toStart : Csi.FirstIs 1 [0x31] := ⟨by decide, by decide⟩
  have whole : Csi.FirstIs 2 [0x32] := ⟨by decide, by decide⟩
  have erases := erases_exactly reached ground
  have code_eq : ∀ bytes x y, code bytes x y =
      ((t.print bytes (⟨0⟩ : Bell.Tally)).1.cell? x y).map Glyph.code := fun _ _ _ => rfl
  have down := (erases.page toEnd).cell?_print (⟨0⟩ : Bell.Tally)
  have up := (erases.page toStart).cell?_print (⟨0⟩ : Bell.Tally)
  have all := (erases.page whole).cell?_print (⟨0⟩ : Bell.Tally)
  have both := erases.page_parts toEnd toStart whole _ (⟨0⟩ : Bell.Tally)
  have status := erases.status_row reserved (Csi.bytes [0x32] 0x4A) _ (⟨0⟩ : Bell.Tally)
  refine ⟨⟨reached, ground, cursor, shown⟩, ⟨toEnd, toStart, whole⟩, ⟨?_, ?_⟩, ⟨?_, ?_⟩, ?_, ?_⟩
  · rw [code_eq, down]
    decide +kernel
  · rw [code_eq, down]
    decide +kernel
  · rw [code_eq, up]
    decide +kernel
  · rw [code_eq, up]
    decide +kernel
  · rw [code_eq, (both 0 2).1, all]
    decide +kernel
  · rw [code_eq, (status 0).1]
    decide +kernel

end Terminal

end SerialTerminal
