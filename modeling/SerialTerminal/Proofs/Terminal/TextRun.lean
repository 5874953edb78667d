/-
Where the characters of a text end up.

On paper text is easy to follow, because no row moves. With wrapping the cells are taken in
reading order: the cell in column `x` of row `y` has the index `y * cols + x`, each character
takes the index after that of the one before, and remainder and quotient by the width lead
back from an index to its column and row. Without wrapping the row is filled to its last
column, and from then on every character goes there, over the one before.

The terminal shows the end of that paper (`Terminal.Shows`), so its cells are the same ones
some rows further up, and scrolling takes no case of its own. **The result is a formula for
every cell** (`text_takes_its_cells`), for texts of any length and on grids down to a single
cell.

The induction is on the text with its last character split off, because that is the one
which is not overwritten any more.
-/
import SerialTerminal.Proofs.Terminal.Paper
import Mathlib.Data.List.Induction

set_option autoImplicit false

namespace SerialTerminal

namespace Paper

variable {pen : Pen} {p : Paper} {bytes : List UInt8} {k : Nat}

/-! ## One character -/

/-- In every case the character goes under the head. -/
theorem cell_putChar (p : Paper) (pen : Pen) (code : UInt8) (x y : Nat) :
    (p.putChar pen code).cell x y =
      if x = p.head.x ∧ y = p.head.y then .ofCode code pen.attrs else p.cell x y := by
  unfold putChar
  dsimp only
  split
  · rfl
  · split
    · rfl
    · rfl

theorem typeAll_append_singleton (p : Paper) (pen : Pen) {b : UInt8}
    (printable : ∀ c ∈ bytes ++ [b], Ascii.isPrintable c = true) :
    p.typeAll pen (bytes ++ [b]) = (p.typeAll pen bytes).putChar pen b := by
  have last : Ascii.isPrintable b = true := printable b List.mem_concat_self
  rw [typeAll, List.foldl_append]
  exact if_pos last

/-! ## In reading order -/

/-- Row and column are quotient and remainder of the index. -/
theorem index_eq_iff {w x : Nat} (hx : x < w) (y k : Nat) :
    y * w + x = k ↔ x = k % w ∧ y = k / w := by
  have unique : k / w = y ∧ k % w = x ↔ x + w * y = k ∧ x < w :=
    Nat.div_mod_unique (Nat.zero_lt_of_lt hx)
  calc y * w + x = k ↔ k / w = y ∧ k % w = x := by
        rw [unique, and_iff_left hx, Nat.mul_comm, Nat.add_comm]
    _ ↔ x = k % w ∧ y = k / w :=
        ⟨fun ⟨row, column⟩ => ⟨column.symm, row.symm⟩, fun ⟨column, row⟩ => ⟨row.symm, column.symm⟩⟩

/-- The cell after that with index `k` is in the next column, or in the first one of the next
row. -/
theorem index_succ {w : Nat} (hw : 0 < w) (k : Nat) :
    (⟨(k + 1) % w, (k + 1) / w⟩ : Cursor) =
      if k % w + 1 < w then ⟨k % w + 1, k / w⟩ else ⟨0, k / w + 1⟩ := by
  have split : k / w * w + k % w = k := Nat.div_add_mod' k w
  have within : k % w < w := Nat.mod_lt k hw
  by_cases room : k % w + 1 < w
  · obtain ⟨column, row⟩ := (index_eq_iff room (k / w) (k + 1)).1 (by omega)
    rw [if_pos room, ← column, ← row]
  · have wrapped : (k / w + 1) * w + 0 = k + 1 := by
      rw [Nat.add_mul]
      omega
    obtain ⟨column, row⟩ := (index_eq_iff hw (k / w + 1) (k + 1)).1 wrapped
    rw [if_neg room, ← column, ← row]

theorem head_putChar_of_autowrap (wraps : pen.policy.autowrap = true) (some_col : 0 < pen.cols)
    (head : p.head = ⟨k % pen.cols, k / pen.cols⟩) (code : UInt8) :
    (p.putChar pen code).head = ⟨(k + 1) % pen.cols, (k + 1) / pen.cols⟩ := by
  have row : p.head.y = k / pen.cols := congrArg Cursor.y head
  have column : p.head.x = k % pen.cols := congrArg Cursor.x head
  rw [index_succ some_col, ← column, ← row]
  unfold putChar
  dsimp only
  by_cases room : p.head.x + 1 < pen.cols
  · rw [if_pos room, if_pos room]
    rfl
  · rw [if_neg room, if_neg room, if_pos wraps]
    rfl

/-- **With wrapping the head goes from index to index.** -/
theorem head_typeAll_of_autowrap (wraps : pen.policy.autowrap = true) (some_col : 0 < pen.cols)
    (head : p.head = ⟨k % pen.cols, k / pen.cols⟩)
    (printable : ∀ b ∈ bytes, Ascii.isPrintable b = true) :
    (p.typeAll pen bytes).head =
      ⟨(k + bytes.length) % pen.cols, (k + bytes.length) / pen.cols⟩ := by
  induction bytes using List.reverseRecOn with
  | nil => exact head
  | append_singleton bytes b ih =>
    have before := (List.forall_mem_append.1 printable).1
    rw [typeAll_append_singleton p pen printable,
      List.length_append, List.length_singleton, ← Nat.add_assoc]
    exact head_putChar_of_autowrap wraps some_col (ih before) b

/-- **With wrapping the character at position `i` has the index `k + i`**, and no other cell
changes. -/
theorem cell_typeAll_of_autowrap (wraps : pen.policy.autowrap = true)
    (head : p.head = ⟨k % pen.cols, k / pen.cols⟩)
    (printable : ∀ b ∈ bytes, Ascii.isPrintable b = true) {x : Nat} (hx : x < pen.cols) (y : Nat) :
    let v := y * pen.cols + x
    some ((p.typeAll pen bytes).cell x y) =
      if k ≤ v ∧ v < k + bytes.length then bytes[v - k]?.map (.ofCode · pen.attrs)
      else some (p.cell x y) := by
  intro v
  have some_col : 0 < pen.cols := Nat.zero_lt_of_lt hx
  induction bytes using List.reverseRecOn with
  | nil =>
    have out : ¬ (k ≤ v ∧ v < k + 0) := by omega
    exact (if_neg out).symm
  | append_singleton bytes b ih =>
    have before := (List.forall_mem_append.1 printable).1
    rw [typeAll_append_singleton p pen printable, cell_putChar,
      head_typeAll_of_autowrap wraps some_col head before, List.length_append,
      List.length_singleton]
    have position_iff : v = k + bytes.length ↔
        x = (k + bytes.length) % pen.cols ∧ y = (k + bytes.length) / pen.cols :=
      index_eq_iff hx y (k + bytes.length)
    -- the last character is at the end of the text, and the others are where they were
    by_cases here : v = k + bytes.length
    · have inside : k ≤ v ∧ v < k + (bytes.length + 1) := by omega
      have position : v - k = bytes.length := by omega
      rw [if_pos (position_iff.1 here), if_pos inside, position, List.getElem?_concat_length,
        Option.map_some]
    · have elsewhere := mt position_iff.2 here
      rw [if_neg elsewhere, ih before]
      by_cases earlier : k ≤ v ∧ v < k + bytes.length
      · have inside : k ≤ v ∧ v < k + (bytes.length + 1) := by omega
        have position : v - k < bytes.length := by omega
        rw [if_pos earlier, if_pos inside, List.getElem?_append_left position]
      · have outside : ¬ (k ≤ v ∧ v < k + (bytes.length + 1)) := by omega
        rw [if_neg earlier, if_neg outside]

/-! ## In one row -/

theorem head_putChar_of_not_autowrap (stays : pen.policy.autowrap = false)
    (inside : p.head.x < pen.cols) (code : UInt8) :
    (p.putChar pen code).head = ⟨min (p.head.x + 1) (pen.cols - 1), p.head.y⟩ := by
  have unwrapped : ¬ pen.policy.autowrap = true := by
    rw [stays]
    exact Bool.false_ne_true
  unfold putChar
  dsimp only
  by_cases room : p.head.x + 1 < pen.cols
  · have next : p.head.x + 1 = min (p.head.x + 1) (pen.cols - 1) := by omega
    rw [if_pos room, ← next]
    rfl
  · have still : p.head.x = min (p.head.x + 1) (pen.cols - 1) := by omega
    rw [if_neg room, if_neg unwrapped, ← still]
    rfl

/-- **Without wrapping the head stops in the last column.** -/
theorem head_typeAll_of_not_autowrap (stays : pen.policy.autowrap = false)
    (inside : p.head.x < pen.cols) (printable : ∀ b ∈ bytes, Ascii.isPrintable b = true) :
    (p.typeAll pen bytes).head = ⟨min (p.head.x + bytes.length) (pen.cols - 1), p.head.y⟩ := by
  induction bytes using List.reverseRecOn with
  | nil =>
    have first : p.head.x = min (p.head.x + 0) (pen.cols - 1) := by omega
    rw [List.length_nil, ← first]
    rfl
  | append_singleton bytes b ih =>
    have reached := ih (List.forall_mem_append.1 printable).1
    have within : (p.typeAll pen bytes).head.x < pen.cols := by
      rw [reached]
      dsimp only
      omega
    have column : min (min (p.head.x + bytes.length) (pen.cols - 1) + 1) (pen.cols - 1) =
        min (p.head.x + (bytes.length + 1)) (pen.cols - 1) := by
      omega
    rw [typeAll_append_singleton p pen printable, head_putChar_of_not_autowrap stays within,
      reached, List.length_append, List.length_singleton, column]

/-- **Without wrapping each character has a column of the row, as long as there are any**,
and those that are left over come one over the other in the last column. -/
theorem cell_typeAll_of_not_autowrap (stays : pen.policy.autowrap = false)
    (inside : p.head.x < pen.cols) (printable : ∀ b ∈ bytes, Ascii.isPrintable b = true) {x : Nat}
    (hx : x < pen.cols) (y : Nat) :
    some ((p.typeAll pen bytes).cell x y) =
      if y = p.head.y ∧ p.head.x ≤ x ∧ x < p.head.x + bytes.length then
        bytes[if x + 1 < pen.cols then x - p.head.x else bytes.length - 1]?.map
          (.ofCode · pen.attrs)
      else some (p.cell x y) := by
  induction bytes using List.reverseRecOn with
  | nil =>
    have out : ¬ (y = p.head.y ∧ p.head.x ≤ x ∧ x < p.head.x + 0) := by omega
    exact (if_neg out).symm
  | append_singleton bytes b ih =>
    have before := (List.forall_mem_append.1 printable).1
    rw [typeAll_append_singleton p pen printable, cell_putChar,
      head_typeAll_of_not_autowrap stays inside before, List.length_append,
      List.length_singleton]
    dsimp only
    -- where the head stands the last character is seen, whatever was there before
    by_cases here : x = min (p.head.x + bytes.length) (pen.cols - 1) ∧ y = p.head.y
    · have written : y = p.head.y ∧ p.head.x ≤ x ∧ x < p.head.x + (bytes.length + 1) := by omega
      have position : (if x + 1 < pen.cols then x - p.head.x else bytes.length + 1 - 1) =
          bytes.length := by
        split
        · omega
        · omega
      rw [if_pos here, if_pos written, position, List.getElem?_concat_length, Option.map_some]
    · rw [if_neg here, ih before]
      by_cases earlier : y = p.head.y ∧ p.head.x ≤ x ∧ x < p.head.x + bytes.length
      · have written : y = p.head.y ∧ p.head.x ≤ x ∧ x < p.head.x + (bytes.length + 1) := by omega
        -- a character that is not under the head has a column of its own
        have short : x + 1 < pen.cols := by omega
        have position : x - p.head.x < bytes.length := by omega
        rw [if_pos earlier, if_pos written, if_pos short, if_pos short,
          List.getElem?_append_left position]
      · have unwritten : ¬ (y = p.head.y ∧ p.head.x ≤ x ∧ x < p.head.x + (bytes.length + 1)) := by
          omega
        rw [if_neg earlier, if_neg unwritten]

end Paper

/-! ## On the terminal -/

theorem Ascii.isText_of_isPrintable {b : UInt8} (printable : isPrintable b = true) :
    isText b = true := by
  simp only [isText, printable, Bool.true_or]

namespace Terminal

variable {β : Type} [Bell β] {cols rows : Nat}

section Closed

variable {t : Terminal cols rows} {bytes : List UInt8}

/-- The terminal shows the paper that has taken the text. -/
theorem shows_typeAll (bounds : t.InBounds) (ground : t.parser = .ground)
    (printable : ∀ b ∈ bytes, Ascii.isPrintable b = true) (bell : β) :
    let u := (t.print bytes bell).1
    u.bare.Shows (t.paper.typeAll t.pen bytes) ∧ u.attrs = t.attrs ∧ u.saved = t.saved ∧
      u.lines = t.lines := by
  intro u
  have text : ∀ b ∈ bytes, Ascii.isText b = true :=
    fun b member => Ascii.isText_of_isPrintable (printable b member)
  obtain ⟨shown, attrs, saved⟩ := shows_print (shows_paper bounds) bounds.lines_pos ground text bell
  exact ⟨shown, attrs, saved,
    Screen.lines_congr (congrArg Setup.statusLine (t.setup_print bytes bell))⟩

/-- With wrapping: the cursor goes on in reading order, and the page moves up by as many rows
as the head has left behind. -/
theorem print_of_autowrap (bounds : t.InBounds) (ground : t.parser = .ground)
    (printable : ∀ b ∈ bytes, Ascii.isPrintable b = true) (wraps : t.policy.autowrap = true)
    (bell : β) :
    let u := (t.print bytes bell).1
    let first := t.cursor.y * cols + t.cursor.x
    let row := (first + bytes.length) / cols
    let scrolled := row - (t.lines - 1)
    u.cursor = ⟨(first + bytes.length) % cols, row - scrolled⟩ ∧
      ∀ cx < cols, ∀ cy < t.lines,
        let v := (cy + scrolled) * cols + cx
        u.cell? cx cy =
          if first ≤ v ∧ v < first + bytes.length then bytes[v - first]?.map (.ofCode · t.attrs)
          else if cy + scrolled < t.lines then t.cell? cx (cy + scrolled)
          else some (.blank t.attrs) := by
  intro u first row scrolled
  obtain ⟨shown, -, -, hlines⟩ := shows_typeAll bounds ground printable bell
  have start : t.paper.head = ⟨first % cols, first / cols⟩ := by
    obtain ⟨column, line⟩ := (Paper.index_eq_iff bounds.cursor_x t.cursor.y first).1 rfl
    rw [← column, ← line]
    rfl
  have head : (t.paper.typeAll t.pen bytes).head = ⟨(first + bytes.length) % cols, row⟩ :=
    Paper.head_typeAll_of_autowrap wraps (Nat.zero_lt_of_lt bounds.cursor_x) start printable
  have top : (t.paper.typeAll t.pen bytes).top u.lines = scrolled := by
    rw [Paper.top, head, hlines]
  refine ⟨?_, ?_⟩
  · rw [shown.cursor_eq, top, head]
  · intro cx hcx cy hcy v
    have width : cx < t.pen.cols := hcx
    have typed := Paper.cell_typeAll_of_autowrap wraps start printable width (cy + scrolled)
    rw [← hlines] at hcy
    rw [shown.cell?_eq hcx hcy, top, Nat.add_comm scrolled cy, typed, t.some_cell_paper hcx]
    rfl

/-- Without wrapping: the cursor stops in the last column, and only its row is written. -/
theorem print_of_not_autowrap (bounds : t.InBounds) (ground : t.parser = .ground)
    (printable : ∀ b ∈ bytes, Ascii.isPrintable b = true) (stays : t.policy.autowrap = false)
    (bell : β) :
    let u := (t.print bytes bell).1
    u.cursor = ⟨min (t.cursor.x + bytes.length) (cols - 1), t.cursor.y⟩ ∧
      ∀ cx < cols, ∀ cy < t.lines,
        u.cell? cx cy =
          if cy = t.cursor.y ∧ t.cursor.x ≤ cx ∧ cx < t.cursor.x + bytes.length then
            bytes[if cx + 1 < cols then cx - t.cursor.x else bytes.length - 1]?.map
              (.ofCode · t.attrs)
          else t.cell? cx cy := by
  intro u
  obtain ⟨shown, -, -, hlines⟩ := shows_typeAll bounds ground printable bell
  have within : t.paper.head.x < t.pen.cols := bounds.cursor_x
  have head : (t.paper.typeAll t.pen bytes).head =
      ⟨min (t.cursor.x + bytes.length) (cols - 1), t.cursor.y⟩ :=
    Paper.head_typeAll_of_not_autowrap stays within printable
  -- the head has not left its row, so the page has not moved
  have top : (t.paper.typeAll t.pen bytes).top u.lines = 0 := by
    have inside := bounds.cursor_y
    rw [Paper.top, head, hlines]
    dsimp only
    omega
  refine ⟨?_, ?_⟩
  · rw [shown.cursor_eq, top, head]
    rfl
  · intro cx hcx cy hcy
    have width : cx < t.pen.cols := hcx
    have typed := Paper.cell_typeAll_of_not_autowrap stays within printable width cy
    have inside := hcy
    rw [← hlines] at hcy
    rw [shown.cell?_eq hcx hcy, top, Nat.zero_add, typed, t.some_cell_paper hcx, if_pos inside]
    rfl

end Closed

/-- **Every cell of a text, in closed form.** A terminal outside any sequence is sent
characters only, as many as one likes.

With wrapping they take the cells in reading order, from the cursor on. By as many rows as
that leads past the last addressable one the page has moved up, and where neither a character
nor an old row is, the cell is blank in the current colors. Without wrapping they take the
columns of the cursor's row, the last of which shows the last of all characters that came to
it, and no other cell changes.

Colors, saved position and status row are what they were. -/
theorem text_takes_its_cells (hc : 0 < cols) (hr : 0 < rows) {t : Terminal cols rows}
    (h : t.Reachable) (ground : t.parser = .ground) {bytes : List UInt8}
    (printable : ∀ b ∈ bytes, Ascii.isPrintable b = true) (bell : β) :
    let u := (t.print bytes bell).1
    let x := t.cursor.x
    let y := t.cursor.y
    let n := bytes.length
    (t.policy.autowrap = true →
      let p := y * cols + x
      let q := (p + n) / cols
      let s := q - (t.lines - 1)
      u.cursor = ⟨(p + n) % cols, q - s⟩ ∧
        ∀ cx < cols, ∀ cy < t.lines,
          let v := (cy + s) * cols + cx
          u.cell? cx cy =
            if p ≤ v ∧ v < p + n then bytes[v - p]?.map (.ofCode · t.attrs)
            else if cy + s < t.lines then t.cell? cx (cy + s)
            else some (.blank t.attrs)) ∧
    (t.policy.autowrap = false →
      u.cursor = ⟨min (x + n) (cols - 1), y⟩ ∧
        ∀ cx < cols, ∀ cy < t.lines,
          u.cell? cx cy =
            if cy = y ∧ x ≤ cx ∧ cx < x + n then
              bytes[if cx + 1 < cols then cx - x else n - 1]?.map (.ofCode · t.attrs)
            else t.cell? cx cy) ∧
    u.attrs = t.attrs ∧ u.saved = t.saved ∧ u.lines = t.lines ∧
    u.screen.hasStatus = t.screen.hasStatus ∧
    (t.screen.hasStatus = true → ∀ cx,
      u.cell? cx (rows - 1) = t.cell? cx (rows - 1) ∧
        u.screen.cell? cx (rows - 1) = t.screen.cell? cx (rows - 1)) := by
  intro u x y n
  have bounds := h.inBounds hc hr
  obtain ⟨-, attrs, saved, hlines⟩ := shows_typeAll bounds ground printable bell
  refine ⟨?_, ?_, attrs, saved, hlines, congrArg Setup.statusLine (t.setup_print bytes bell), ?_⟩
  · intro wraps
    exact print_of_autowrap bounds ground printable wraps bell
  · intro stays
    exact print_of_not_autowrap bounds ground printable stays bell
  · intro reserved cx
    exact ⟨h.cell?_print_last_row reserved bytes bell cx,
      h.screen_print_last_row reserved bytes bell cx⟩

/-- Two lines of three columns above a status row, with the cursor in the second column. Eight
letters make the page move up by two rows when they wrap; when they do not, the last one is in
the last column. -/
theorem text_takes_its_cells_past_the_last_line :
    let t := ((create 3 3 {}).operateAll [.writeStatus [0x4C] [0x4E], .print [0x78]]
      (⟨0⟩ : Bell.Tally)).1
    let t' := ((create 3 3 { policy := { autowrap := false } }).operateAll
      [.writeStatus [0x4C] [0x4E], .print [0x78]] (⟨0⟩ : Bell.Tally)).1
    let bytes := [0x41, 0x42, 0x43, 0x44, 0x45, 0x46, 0x47, 0x48]
    (t.Reachable ∧ t.parser = .ground) ∧ (t'.Reachable ∧ t'.parser = .ground) ∧
      (∀ b ∈ bytes, Ascii.isPrintable b = true) ∧
      (t.print bytes (⟨0⟩ : Bell.Tally)).1.cursor = ⟨0, 1⟩ ∧
      (t.print bytes (⟨0⟩ : Bell.Tally)).1.cell? 2 0 = some (.ofCode 0x48 t.attrs) ∧
      (t.print bytes (⟨0⟩ : Bell.Tally)).1.cell? 0 1 = some (.blank t.attrs) ∧
      (t'.print bytes (⟨0⟩ : Bell.Tally)).1.cursor = ⟨2, 0⟩ ∧
      (t'.print bytes (⟨0⟩ : Bell.Tally)).1.cell? 2 0 = some (.ofCode 0x48 t'.attrs) := by
  intro t t' bytes
  have reached : t.Reachable := (Reachable.create _).operateAll _ _
  have reached' : t'.Reachable := (Reachable.create _).operateAll _ _
  have ground : t.parser = .ground := by decide +kernel
  have ground' : t'.parser = .ground := by decide +kernel
  have printable : ∀ b ∈ bytes, Ascii.isPrintable b = true := by decide +kernel
  have wrapped := (text_takes_its_cells (by decide) (by decide) reached ground printable
    (⟨0⟩ : Bell.Tally)).1 (by decide +kernel)
  have stayed := (text_takes_its_cells (by decide) (by decide) reached' ground' printable
    (⟨0⟩ : Bell.Tally)).2.1 (by decide +kernel)
  refine ⟨⟨reached, ground⟩, ⟨reached', ground'⟩, printable, ?_, ?_, ?_, ?_, ?_⟩
  · rw [wrapped.1]
    decide +kernel
  · rw [wrapped.2 2 (by decide) 0 (by decide +kernel)]
    decide +kernel
  · rw [wrapped.2 0 (by decide) 1 (by decide +kernel)]
    decide +kernel
  · rw [stayed.1]
    decide +kernel
  · rw [stayed.2 2 (by decide) 0 (by decide +kernel)]
    decide +kernel

end Terminal

end SerialTerminal
