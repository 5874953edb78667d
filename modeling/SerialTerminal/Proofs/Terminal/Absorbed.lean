/-
Input that asks for nothing.

Much of what a host sends says nothing to the terminal: the bytes within a sequence, a
control without a meaning, a sequence with a final byte or a parameter that is not known.
The bell byte is of this kind too, as it concerns the bell alone. **Of such input the parser
takes notice, and nothing else does** (`receive_of_isInert`).

The marker is lifted and laid down again all the same, so this holds of terminals whose
marker is in its place, which the reachable ones are.
-/
import SerialTerminal.Proofs.Terminal.Isolation

set_option autoImplicit false

namespace SerialTerminal

/-- The action leaves the terminal as it is. -/
def Action.isInert : Action → Bool
  | .none => true
  | .print _ => false
  | .control b => (Control.ofByte? b).all (· == .bell)
  | .csi c => c.command?.isNone

namespace Terminal

variable {β : Type} [Bell β] {cols rows : Nat}

theorem perform_of_isInert (t : Terminal cols rows) {a : Action} (inert : a.isInert = true) :
    t.perform a = t := by
  cases a with
  | none => rfl
  | print code => cases inert
  | control b =>
    rw [perform]
    rw [Action.isInert] at inert
    cases meaning : Control.ofByte? b with
    | none => rfl
    | some c =>
      rw [meaning, Option.all_some, beq_iff_eq] at inert
      rw [inert]
      rfl
  | csi c =>
    rw [perform, Option.isNone_iff_eq_none.1 inert]
    rfl

/-- **A byte that asks for nothing changes the parser and nothing else.** -/
theorem receive_of_isInert {t : Terminal cols rows} (placed : t.MarkerPlaced) {b : UInt8}
    (inert : (t.parser.feed b).2.isInert = true) :
    t.receive b = { t with parser := (t.parser.feed b).1 } := by
  have read : t.lift.interpret b = { t.lift with parser := (t.parser.feed b).1 } :=
    perform_of_isInert _ inert
  calc t.receive b = (t.lift.interpret b).place := rfl
    _ = { t.lift.place with parser := (t.parser.feed b).1 } := by rw [read]; rfl
    _ = { t with parser := (t.parser.feed b).1 } := by rw [placed.place_lift]

theorem fst_print_of_isInert {t : Terminal cols rows} (placed : t.MarkerPlaced)
    {bytes : List UInt8} (inert : ∀ a ∈ (t.parser.feedAll bytes).2, a.isInert = true) (bell : β) :
    (t.print bytes bell).1 = { t with parser := (t.parser.feedAll bytes).1 } := by
  induction bytes generalizing t bell with
  | nil => rfl
  | cons b bytes ih =>
    rw [Parser.feedAll_cons] at inert ⊢
    obtain ⟨first, later⟩ := List.forall_mem_cons.1 inert
    have received := receive_of_isInert placed first
    have still : (t.receive b).MarkerPlaced := markerPlaced_place _
    have parser : (t.receive b).parser = (t.parser.feed b).1 := congrArg Terminal.parser received
    rw [← parser] at later ⊢
    rw [print, handle, ih still later, received]

end Terminal

end SerialTerminal
