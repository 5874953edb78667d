/-
Scrolling from the host.

A scroll moves the logical view up, with the marker lifted before and laid down again after.
**The number that comes with it counts repetitions** (`scrolling_laws`): a scroll by `n` rows is
`n` scrolls by one, to the same terminal, as the shifts of the screen add up. The cursor does
not go along with the rows.
-/
import SerialTerminal.Proofs.Screen.Scroll
import SerialTerminal.Proofs.Terminal.Sequence

set_option autoImplicit false

namespace SerialTerminal

namespace Terminal

variable {cols rows : Nat} {t u : Terminal cols rows}

/-! ## The view moved up -/

/-- The logical view with the addressable rows moved up by `n`, and blanks in the colors being
written for the rows that are missing then. -/
def scrolled (t : Terminal cols rows) (n x y : Nat) : Option Glyph :=
  if t.lines ≤ y then t.cell? x y
  else if y + n < t.lines then t.cell? x (y + n)
  else (t.cell? x y).map fun _ => .blank t.attrs

/-- Scrolling with the marker off the screen moves up the view. -/
theorem cell?_scrollUp_lift (t : Terminal cols rows) (n x y : Nat) :
    (t.lift.screen.scrollUp n t.attrs).cell? x y = t.scrolled n x y := by
  have lines : t.lift.screen.lines = t.lines := t.lines_lift
  rw [Screen.cell?_scrollUp, lines, cell?_screen_lift, cell?_screen_lift, scrolled]

theorem scrolled_zero (t : Terminal cols rows) (x y : Nat) : t.scrolled 0 x y = t.cell? x y := by
  rw [← cell?_scrollUp_lift, Screen.scrollUp_zero, cell?_screen_lift]

/-- Where the view has been moved up, it is moved up further. -/
theorem Becomes.scrolled {i : Nat} {cursor : Cursor} (first : t.Becomes u (t.scrolled i) cursor)
    (j x y : Nat) : u.scrolled j x y = t.scrolled (i + j) x y := by
  have screen : u.lift.screen = t.lift.screen.scrollUp i t.attrs := by
    refine Screen.ext_cell? (fun x y => ?_) ?_
    · rw [cell?_screen_lift, first.cell?_eq, cell?_scrollUp_lift]
    · rw [hasStatus_screen_lift, first.hasStatus_eq, Screen.hasStatus_scrollUp,
        hasStatus_screen_lift]
  rw [← cell?_scrollUp_lift, screen, first.attrs_eq, Screen.scrollUp_scrollUp,
    cell?_scrollUp_lift]

/-! ## The sequences -/

theorem yields_scrollUp (h : t.Reachable) (ground : t.parser = .ground) {body : List UInt8}
    (hbody : Csi.IsBody body) :
    t.Yields (Csi.bytes body 0x53) (t.scrolled ((Csi.ofBytes body 0x53).paramOr 0 1))
      t.cursor := by
  have status : (t.lift.screen.scrollUp ((Csi.ofBytes body 0x53).paramOr 0 1) t.attrs).hasStatus =
      t.screen.hasStatus := t.hasStatus_screen_lift
  exact yields_of_command h.markerPlaced ground hbody (by decide) rfl status rfl
    (t.cell?_scrollUp_lift _)

/-- A scroll by one row, time after time. -/
theorem yields_scrollUp_repeated (h : t.Reachable) (ground : t.parser = .ground) (n : Nat) :
    t.Yields (List.replicate n (Csi.bytes [] 0x53)).flatten (t.scrolled n) t.cursor := by
  -- on the repetitions to come, seen from the terminal as scrolled so far
  induction n generalizing t with
  | zero =>
    intro β _ bell
    exact ⟨t, rfl, (Becomes.refl t).of_cells fun x y => (t.scrolled_zero x y).symm⟩
  | succ n ih =>
    rw [List.replicate_succ, List.flatten_cons]
    refine (yields_scrollUp h ground (by decide)).append h fun u reached becomes => ?_
    have rest := ih reached (becomes.parser_eq.trans ground)
    have cells : u.scrolled n = t.scrolled (n + 1) := by
      funext x y
      rw [becomes.scrolled, Nat.add_comm]
      rfl
    rw [becomes.cursor_eq, cells] at rest
    exact rest

/-- **Scrolling is a shift, and shifts add up.** On any grid, with a status row or without: a
cell shows what was `n` rows below it, or a blank where the addressable rows have ended; the
rows past them stay. This is what turning the rows in place comes to. Two scrolls are one by
the sum, and as many rows as there are, or more, are a clear. So on a terminal that is outside
any sequence a scroll by `n` does what `n` scrolls by one do, and the cursor stays. -/
theorem scrolling_laws (cols rows : Nat) :
    (∀ (s : Screen cols rows) (attrs : Attrs),
      (∀ n x y, (s.scrollUp n attrs).cell? x y =
        if s.lines ≤ y then s.cell? x y
        else if y + n < s.lines then s.cell? x (y + n)
        else (s.cell? x y).map fun _ => .blank attrs) ∧
      (∀ n, s.scrollUp n attrs = s.scrollInPlace n attrs) ∧
      (∀ i j, (s.scrollUp i attrs).scrollUp j attrs = s.scrollUp (i + j) attrs) ∧
      (∀ n, s.lines ≤ n → s.scrollUp n attrs = s.clear attrs)) ∧
    ∀ t : Terminal cols rows, t.Reachable → t.parser = .ground →
      ∀ n body, Csi.FirstIs n body → 1 ≤ n → n ≤ 65535 →
        t.Yields (Csi.bytes body 0x53) (t.scrolled n) t.cursor ∧
        ∀ (β : Type) [Bell β] (bell : β),
          t.print (Csi.bytes body 0x53) bell =
            t.print (List.replicate n (Csi.bytes [] 0x53)).flatten bell := by
  refine ⟨fun s attrs => ⟨?_, ?_, ?_, ?_⟩, ?_⟩
  · exact fun n => s.cell?_scrollUp n attrs
  · exact fun n => s.scrollUp_eq_inPlace n attrs
  · exact fun i j => s.scrollUp_scrollUp i j attrs
  · exact fun n all => s.scrollUp_eq_clear all attrs
  · intro t h ground n body first pos small
    have once := yields_scrollUp h ground first.isBody
    rw [first.paramOr_eq 0x53 pos small] at once
    refine ⟨once, fun β _ bell => ?_⟩
    exact once.print_eq (yields_scrollUp_repeated h ground n) h.markerPlaced bell

/-- Five letters on a page of two columns and three lines, with the cursor shown after the fifth
of them. Two rows up, the fifth letter is the first and the cursor is still where it was; the
greatest scroll clears the page. -/
theorem scrolling_laws_by_two_rows :
    let t := ((create 2 4 {}).operateAll [.banner,
      .print (Csi.bytes [] 0x48 ++ [0x41, 0x42, 0x43, 0x44, 0x45])] (⟨0⟩ : Bell.Tally)).1
    let u := (t.print (Csi.bytes [0x32] 0x53) (⟨0⟩ : Bell.Tally)).1
    (t.Reachable ∧ t.parser = .ground ∧ t.cursor = ⟨1, 2⟩ ∧ Csi.FirstIs 2 [0x32]) ∧
      t.print (Csi.bytes [0x32] 0x53) (⟨0⟩ : Bell.Tally) =
        t.print (Csi.bytes [] 0x53 ++ Csi.bytes [] 0x53) ⟨0⟩ ∧
      (u.cell? 0 0).map Glyph.code = some 0x45 ∧ (u.cell? 0 1).map Glyph.code = some 0x20 ∧
      t.Yields (Csi.bytes [0x32] 0x53) (t.scrolled 2) ⟨1, 2⟩ ∧
      t.screen.lines = 3 ∧ t.screen.scrollUp 65535 t.attrs = t.screen.clear t.attrs := by
  intro t u
  have reached : t.Reachable := (Reachable.create _).operateAll _ _
  have ground : t.parser = .ground := by decide +kernel
  have cursor : t.cursor = ⟨1, 2⟩ := by decide +kernel
  have lines : t.screen.lines = 3 := by decide +kernel
  have two : Csi.FirstIs 2 [0x32] := ⟨by decide, by decide⟩
  obtain ⟨screens, terminals⟩ := scrolling_laws 2 4
  obtain ⟨-, -, -, all⟩ := screens t.screen t.attrs
  obtain ⟨yields, repeated⟩ := terminals t reached ground 2 [0x32] two (by decide) (by decide)
  have cells := yields.cell?_print (⟨0⟩ : Bell.Tally)
  refine ⟨⟨reached, ground, cursor, two⟩, repeated _ _, ?_, ?_, ?_, lines, ?_⟩
  · rw [cells]
    decide +kernel
  · rw [cells]
    decide +kernel
  · rw [← cursor]
    exact yields
  · exact all 65535 (by rw [lines]; decide)

end Terminal

end SerialTerminal
