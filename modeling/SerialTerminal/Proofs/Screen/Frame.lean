/-
Frames.

A frame is drawn in eight strokes, four edges and then four corners. Which of them a cell ends
up with is a question of which came last, and `Drawing` is the answer kept as a value: what has
been put where so far, a stroke laid over what was there (`Drawing.over`). **The screen is the old
one seen through the drawing** (`Drawn`), however many strokes there were.

A drawing knows no grid. That is all there is to clipping: the same frame is drawn on every
grid, and each shows what it has cells for (`frame_drawn_and_clipped`).
-/
import SerialTerminal.Screen.Draw

set_option autoImplicit false

namespace SerialTerminal

/-! ## Drawings -/

/-- What has been drawn, by column and row. -/
abbrev Drawing := Nat → Nat → Option Glyph

/-- A glyph drawn in a set of cells, on top of a drawing. -/
def Drawing.over (d : Drawing) (cells : Nat → Nat → Prop) [∀ x y, Decidable (cells x y)]
    (g : Glyph) : Drawing :=
  fun x y => if cells x y then some g else d x y

theorem Drawing.isSome_over (d : Drawing) (cells : Nat → Nat → Prop)
    [∀ x y, Decidable (cells x y)] (g : Glyph) (x y : Nat) :
    (d.over cells g x y).isSome ↔ cells x y ∨ (d x y).isSome := by
  rw [Drawing.over]
  by_cases here : cells x y
  · rw [if_pos here]
    exact iff_of_true rfl (.inl here)
  · rw [if_neg here, or_iff_right here]

namespace Screen

variable {cols rows : Nat}

/-- A screen with a drawing on it is another one: it has the same rows reserved, and its cells
are those of the drawing, or the old ones where nothing is drawn. -/
structure Drawn (s : Screen cols rows) (d : Drawing) (s' : Screen cols rows) : Prop where
  hasStatus_eq : s'.hasStatus = s.hasStatus
  cell?_eq : ∀ x y, s'.cell? x y = (s.cell? x y).map (d x y).getD

theorem Drawn.refl (s : Screen cols rows) : s.Drawn (fun _ _ => none) s :=
  ⟨rfl, fun _ _ => Option.map_id'.symm⟩

/-- **One more stroke is laid over the others.** -/
theorem Drawn.over {s s' s'' : Screen cols rows} {d : Drawing} (h : s.Drawn d s') {g : Glyph}
    (cells : Nat → Nat → Prop) [∀ x y, Decidable (cells x y)]
    (status : s''.hasStatus = s'.hasStatus)
    (stroke : ∀ x y, s''.cell? x y =
      if cells x y then (s'.cell? x y).map fun _ => g else s'.cell? x y) :
    s.Drawn (d.over cells g) s'' := by
  refine ⟨status.trans h.hasStatus_eq, fun x y => ?_⟩
  rw [stroke, h.cell?_eq, Drawing.over]
  by_cases here : cells x y
  · rw [if_pos here, if_pos here, Option.map_map]
    rfl
  · rw [if_neg here, if_neg here]

theorem Drawn.put {s s' : Screen cols rows} {d : Drawing} (h : s.Drawn d s') (x y : Nat)
    (g : Glyph) : s.Drawn (d.over (fun cx cy => cx = x ∧ cy = y) g) (s'.put x y g) :=
  h.over _ (hasStatus_put ..) (cell?_put s' x y g)

/-! ### Edges -/

/-- The order of the cells does not matter, since all of them get the same glyph. -/
theorem cell?_stroke (s : Screen cols rows) (cells : List (Nat × Nat)) (g : Glyph) (x y : Nat) :
    (s.stroke cells g).cell? x y =
      if (x, y) ∈ cells then (s.cell? x y).map fun _ => g else s.cell? x y := by
  induction cells generalizing s with
  | nil => rfl
  | cons c rest ih =>
    have first : (s.stroke (c :: rest) g).cell? x y =
        ((s.put c.1 c.2 g).stroke rest g).cell? x y := rfl
    rw [first, ih, cell?_put]
    by_cases here : x = c.1 ∧ y = c.2
    · have member : (x, y) ∈ c :: rest := List.mem_cons.2 (.inl (Prod.ext here.1 here.2))
      rw [if_pos here, if_pos member, Option.map_map, Function.comp_def, ite_self]
    · have same : (x, y) ∈ c :: rest ↔ (x, y) ∈ rest := by
        rw [List.mem_cons, Prod.ext_iff, or_iff_right here]
      simp only [if_neg here, same]

theorem mem_columnsBetween {left right x : Nat} :
    x ∈ columnsBetween cols left right ↔ x < cols ∧ left < x ∧ x < right := by
  rw [columnsBetween, List.mem_filter, List.mem_range, Bool.and_eq_true, decide_eq_true_eq,
    decide_eq_true_eq]

variable {s s' : Screen cols rows} {d : Drawing}

/-- The cells of an edge are listed only as far as the grid goes, which makes no difference. -/
theorem Drawn.stroke (h : s.Drawn d s') (edge : List (Nat × Nat)) (cells : Nat → Nat → Prop)
    [∀ x y, Decidable (cells x y)] (g : Glyph)
    (listed : ∀ x y, x < cols → y < rows → ((x, y) ∈ edge ↔ cells x y)) :
    s.Drawn (d.over cells g) (s'.stroke edge g) := by
  refine h.over cells (hasStatus_stroke ..) fun x y => ?_
  rw [cell?_stroke]
  by_cases inside : x < cols ∧ y < rows
  · simp only [listed x y inside.1 inside.2]
  · have gone : s'.cell? x y = none := (cell?_eq_none_iff ..).2 inside
    rw [gone, Option.map_none, ite_self, ite_self]

theorem Drawn.acrossRow (h : s.Drawn d s') (left right row : Nat) (g : Glyph) :
    s.Drawn (d.over (fun x y => y = row ∧ left < x ∧ x < right) g)
      (s'.stroke ((columnsBetween cols left right).map fun x => (x, row)) g) := by
  refine h.stroke _ _ g fun x y hx _ => ?_
  simp only [List.mem_map, mem_columnsBetween, Prod.mk.injEq]
  constructor
  · rintro ⟨x', ⟨-, between⟩, rfl, rfl⟩
    exact ⟨rfl, between⟩
  · rintro ⟨rfl, between⟩
    exact ⟨x, ⟨hx, between⟩, rfl, rfl⟩

theorem Drawn.downColumn (h : s.Drawn d s') (top bottom col : Nat) (g : Glyph) :
    s.Drawn (d.over (fun x y => x = col ∧ top < y ∧ y < bottom) g)
      (s'.stroke ((columnsBetween rows top bottom).map fun y => (col, y)) g) := by
  refine h.stroke _ _ g fun x y _ hy => ?_
  simp only [List.mem_map, mem_columnsBetween, Prod.mk.injEq]
  constructor
  · rintro ⟨y', ⟨-, between⟩, rfl, rfl⟩
    exact ⟨rfl, between⟩
  · rintro ⟨rfl, between⟩
    exact ⟨y, ⟨hy, between⟩, rfl, rfl⟩

/-! ## The frame -/

/-- The pieces of the frame with the given sides: where they are, and their codes. -/
inductive FramePiece (left top right bottom : Nat) : Nat → Nat → UInt8 → Prop where
  | upperLeft : FramePiece left top right bottom left top frameShapes.upperLeft
  | upperRight : FramePiece left top right bottom right top frameShapes.upperRight
  | lowerLeft : FramePiece left top right bottom left bottom frameShapes.lowerLeft
  | lowerRight : FramePiece left top right bottom right bottom frameShapes.lowerRight
  | upperEdge {x : Nat} (after : left < x) (before : x < right) :
      FramePiece left top right bottom x top frameShapes.horizontal
  | lowerEdge {x : Nat} (after : left < x) (before : x < right) :
      FramePiece left top right bottom x bottom frameShapes.horizontal
  | leftEdge {y : Nat} (below : top < y) (above : y < bottom) :
      FramePiece left top right bottom left y frameShapes.vertical
  | rightEdge {y : Nat} (below : top < y) (above : y < bottom) :
      FramePiece left top right bottom right y frameShapes.vertical

/-- The strokes of a frame, the last one on top. -/
def frame (left top right bottom : Nat) (attrs : Attrs) : Drawing :=
  let glyph := fun code => Glyph.ofCode code attrs
  let blank : Drawing := fun _ _ => none
  blank
    |>.over (fun x y => y = top ∧ left < x ∧ x < right) (glyph frameShapes.horizontal)
    |>.over (fun x y => y = bottom ∧ left < x ∧ x < right) (glyph frameShapes.horizontal)
    |>.over (fun x y => x = left ∧ top < y ∧ y < bottom) (glyph frameShapes.vertical)
    |>.over (fun x y => x = right ∧ top < y ∧ y < bottom) (glyph frameShapes.vertical)
    |>.over (fun x y => x = left ∧ y = top) (glyph frameShapes.upperLeft)
    |>.over (fun x y => x = right ∧ y = top) (glyph frameShapes.upperRight)
    |>.over (fun x y => x = left ∧ y = bottom) (glyph frameShapes.lowerLeft)
    |>.over (fun x y => x = right ∧ y = bottom) (glyph frameShapes.lowerRight)

section Frame

variable {left top right bottom x y : Nat} {code : UInt8}

/-- Where the sides are apart, no piece of the frame covers another one. -/
theorem frame_of_piece (wide : left < right) (high : top < bottom)
    (piece : FramePiece left top right bottom x y code) (attrs : Attrs) :
    frame left top right bottom attrs x y = some (.ofCode code attrs) := by
  unfold frame Drawing.over
  -- the strokes that come after the piece's own do not reach its cell
  cases piece with
  | upperLeft | upperRight | lowerLeft | lowerRight =>
    simp (disch := omega) only [if_neg, true_and, if_true]
  | upperEdge | lowerEdge | leftEdge | rightEdge =>
    simp (disch := omega) only [if_neg, true_and, if_pos]

/-- What is drawn somewhere is a piece of the frame. -/
theorem exists_piece_of_isSome {attrs : Attrs}
    (drawn : (frame left top right bottom attrs x y).isSome) :
    ∃ code, FramePiece left top right bottom x y code := by
  simp only [frame, Drawing.isSome_over, Option.isSome_none, Bool.false_eq_true, or_false] at drawn
  -- the strokes from the last to the first
  rcases drawn with ⟨rfl, rfl⟩ | ⟨rfl, rfl⟩ | ⟨rfl, rfl⟩ | ⟨rfl, rfl⟩ | ⟨rfl, below, above⟩ |
    ⟨rfl, below, above⟩ | ⟨rfl, after, before⟩ | ⟨rfl, after, before⟩
  · exact ⟨_, .lowerRight⟩
  · exact ⟨_, .lowerLeft⟩
  · exact ⟨_, .upperRight⟩
  · exact ⟨_, .upperLeft⟩
  · exact ⟨_, .rightEdge below above⟩
  · exact ⟨_, .leftEdge below above⟩
  · exact ⟨_, .lowerEdge after before⟩
  · exact ⟨_, .upperEdge after before⟩

theorem frame_of_no_piece (bare : ∀ code, ¬ FramePiece left top right bottom x y code)
    (attrs : Attrs) : frame left top right bottom attrs x y = none := by
  rw [← Option.not_isSome_iff_eq_none]
  intro drawn
  obtain ⟨code, piece⟩ := exists_piece_of_isSome drawn
  exact bare code piece

/-- **The screen is the old one with the frame drawn on it**, each stroke over those before. -/
theorem drawn_drawBox (s : Screen cols rows) (row col : Nat) {width height : Nat}
    (wide : 2 ≤ width) (high : 2 ≤ height) (attrs : Attrs) :
    s.Drawn (frame col row (col + width - 1) (row + height - 1) attrs)
      (s.drawBox row col width height attrs) := by
  have drawable : ¬ (width < 2 ∨ height < 2) := by omega
  rw [drawBox, if_neg drawable]
  exact Drawn.refl s
    |>.acrossRow _ _ row _
    |>.acrossRow _ _ (row + height - 1) _
    |>.downColumn _ _ col _
    |>.downColumn _ _ (col + width - 1) _
    |>.put col row _
    |>.put (col + width - 1) row _
    |>.put col (row + height - 1) _
    |>.put (col + width - 1) (row + height - 1) _

/-- **A frame is its corners and its edges and nothing else, as far as the grid shows it.** A
cell under a piece of the frame holds that piece in the colors given, and every other cell, inside
the frame or outside, is what it was; a width or a height below two draws nothing at all. What
lies off the grid has no part in this: on a larger grid that held the same cells, the same
frame leaves the same cells. -/
theorem frame_drawn_and_clipped (s : Screen cols rows) (row col width height : Nat)
    (attrs : Attrs) :
    let s' := s.drawBox row col width height attrs
    let right := col + width - 1
    let bottom := row + height - 1
    (2 ≤ width → 2 ≤ height → ∀ x y, x < cols → y < rows →
      (∀ code, FramePiece col row right bottom x y code →
        s'.cell? x y = some (.ofCode code attrs)) ∧
      ((∀ code, ¬ FramePiece col row right bottom x y code) → s'.cell? x y = s.cell? x y)) ∧
    (width < 2 ∨ height < 2 → s' = s) ∧
    s'.hasStatus = s.hasStatus ∧
    ∀ (cols' rows' : Nat) (t : Screen cols' rows'),
      (∀ x y, x < cols → y < rows → t.cell? x y = s.cell? x y) →
      ∀ x y, x < cols → y < rows →
        (t.drawBox row col width height attrs).cell? x y = s'.cell? x y := by
  intro s' right bottom
  refine ⟨fun wide high x y hx hy => ⟨fun code piece => ?_, fun bare => ?_⟩, fun small => ?_,
    hasStatus_drawBox .., fun cols' rows' t same x y hx hy => ?_⟩
  · have apart : col < right ∧ row < bottom := by omega
    rw [(drawn_drawBox s row col wide high attrs).cell?_eq,
      frame_of_piece apart.1 apart.2 piece attrs, cell?_eq_some hx hy]
    rfl
  · rw [(drawn_drawBox s row col wide high attrs).cell?_eq, frame_of_no_piece bare attrs]
    exact Option.map_id'
  · exact if_pos small
  · by_cases small : width < 2 ∨ height < 2
    · have undrawn : s' = s := if_pos small
      rw [undrawn, drawBox, if_pos small, same x y hx hy]
    · have drawable : 2 ≤ width ∧ 2 ≤ height := by omega
      rw [(drawn_drawBox t row col drawable.1 drawable.2 attrs).cell?_eq,
        (drawn_drawBox s row col drawable.1 drawable.2 attrs).cell?_eq, same x y hx hy]

/-- On three rows of three cells, a frame that goes past both far edges shows its upper left corner
and a part of two sides, as it does on a grid that has room for all of it. -/
theorem frame_cut_off_by_grid :
    let s := blank 3 3 ⟨.white, .black⟩
    let cut := s.drawBox 1 1 4 4 ⟨.black, .white⟩
    FramePiece 1 1 4 4 1 1 frameShapes.upperLeft ∧
      cut.cell? 1 1 = some (.ofCode 0x1C ⟨.black, .white⟩) ∧
      cut.cell? 2 1 = some (.ofCode 0x15 ⟨.black, .white⟩) ∧
      cut.cell? 1 2 = some (.ofCode 0x1A ⟨.black, .white⟩) ∧
      cut.cell? 2 2 = s.cell? 2 2 ∧
      s.drawBox 1 1 1 4 ⟨.black, .white⟩ = s ∧
      ∀ x y, x < 3 → y < 3 →
        ((blank 6 5 ⟨.white, .black⟩).drawBox 1 1 4 4 ⟨.black, .white⟩).cell? x y =
          cut.cell? x y := by
  intro s cut
  obtain ⟨drawn, -, -, clipped⟩ := frame_drawn_and_clipped s 1 1 4 4 ⟨.black, .white⟩
  have cells := drawn (by decide) (by decide)
  have inside : ∀ code, ¬ FramePiece 1 1 (1 + 4 - 1) (1 + 4 - 1) 2 2 code := by
    rintro code (_ | _ | _ | _ | _ | _ | _ | _)
  refine ⟨.upperLeft, (cells 1 1 (by decide) (by decide)).1 _ .upperLeft,
    (cells 2 1 (by decide) (by decide)).1 _ (.upperEdge (by decide) (by decide)),
    (cells 1 2 (by decide) (by decide)).1 _ (.leftEdge (by decide) (by decide)),
    (cells 2 2 (by decide) (by decide)).2 inside,
    (frame_drawn_and_clipped s 1 1 1 4 ⟨.black, .white⟩).2.1 (.inl (by decide)), ?_⟩
  refine clipped 6 5 (blank 6 5 ⟨.white, .black⟩) fun x y hx hy => ?_
  have room : x < 6 ∧ y < 5 := by omega
  rw [cell?_blank, cell?_blank, if_pos room, if_pos ⟨hx, hy⟩]

end Frame

end Screen

end SerialTerminal
