/-
Saving the cursor's position and going back to it.

**Of all that the host can send only one sequence writes the saved position**, and what it
writes is where the cursor is. Of all other operations a reset does, and the banner, which
begins with one. Everything else leaves the position alone (`saved_operateAll`), so it is still
there when it is asked for, after texts, erasures and broken sequences of any length.

What may have changed meanwhile is the number of addressable rows. Restoring brings the
position back among them, so it is the position itself unless the status row has been reserved
under it (`restore_returns_to_saved`).
-/
import SerialTerminal.Proofs.Terminal.Motion

set_option autoImplicit false

namespace SerialTerminal

/-! ## What writes the saved position -/

/-- The action is the sequence that saves the position. -/
def Action.saves : Action → Bool
  | .csi c => c.final == 0x73
  | _ => false

/-- Among the sequences that the bytes complete, read from the ground state on, there is none
that saves the position. -/
def SavesNothing (bytes : List UInt8) : Prop :=
  ∀ c, Action.csi c ∈ (Parser.ground.feedAll bytes).2 → c.final ≠ 0x73

theorem savesNothing_iff (bytes : List UInt8) :
    SavesNothing bytes ↔ ∀ a ∈ (Parser.ground.feedAll bytes).2, a.saves = false := by
  constructor
  · intro h a member
    cases a with
    | csi c => exact beq_eq_false_iff_ne.2 (h c member)
    | _ => rfl
  · intro h c member
    exact beq_eq_false_iff_ne.1 (h (.csi c) member)

instance (bytes : List UInt8) : Decidable (SavesNothing bytes) :=
  decidable_of_iff _ (savesNothing_iff bytes).symm

namespace Operation

/-- The bytes from the host. -/
def received : Operation → List UInt8
  | handle b => [b]
  | print bytes => bytes
  | _ => []

/-- The operation begins with a reset. -/
def startsOver : Operation → Bool
  | banner => true
  | reset => true
  | _ => false

end Operation

namespace Terminal

variable {β : Type} [Bell β] {cols rows : Nat} (t : Terminal cols rows)

/-! ## Everything else leaves it alone -/

theorem saved_putChar (code : UInt8) : (t.putChar code).saved = t.saved := by
  obtain ⟨screen, cursor, drawn⟩ := t.exists_putChar code
  rw [drawn]

theorem saved_control (c : Control) : (t.control c).saved = t.saved := by
  obtain ⟨screen, cursor, done⟩ := t.exists_control c
  rw [done]

theorem saved_run {c : Command} (other : c ≠ .saveCursor) : (t.run c).saved = t.saved := by
  cases c with
  | saveCursor => exact absurd rfl other
  | eraseLine extent => cases extent <;> rfl
  | erasePage extent => cases extent <;> rfl
  | render r => cases r <;> rfl
  | _ => rfl

theorem saved_perform {a : Action} (keeps : a.saves = false) : (t.perform a).saved = t.saved := by
  cases a with
  | none => rfl
  | print code => exact t.saved_putChar code
  | control b =>
    rw [perform]
    cases Control.ofByte? b with
    | none => rfl
    | some c => exact t.saved_control c
  | csi c =>
    rw [perform]
    cases asks : c.command? with
    | none => rfl
    | some command =>
      apply t.saved_run
      rintro rfl
      exact beq_eq_false_iff_ne.1 keeps (Csi.final_of_command? asks)

theorem saved_foldl_act {actions : List Action} (keep : ∀ a ∈ actions, a.saves = false) :
    (actions.foldl act t).saved = t.saved := by
  induction actions generalizing t with
  | nil => rfl
  | cons a actions ih =>
    obtain ⟨first, later⟩ := List.forall_mem_cons.1 keep
    have here : (t.act a).saved = t.saved := t.lift.saved_perform first
    rw [List.foldl_cons, ih _ later, here]

theorem saved_print {bytes : List UInt8}
    (keep : ∀ a ∈ (t.parser.feedAll bytes).2, a.saves = false) (bell : β) :
    (t.print bytes bell).1.saved = t.saved := by
  rw [fst_print_eq]
  exact t.saved_foldl_act keep

/-! ## Runs without a reset -/

/-- The parser hears of an operation only what it brings from the host. -/
theorem parser_operate {op : Operation} (goesOn : op.startsOver = false) (bell : β) :
    (t.operate op bell).1.parser = (t.parser.feedAll op.received).1 := by
  cases op with
  | handle b => exact t.parser_receive b
  | print bytes => exact t.parser_print bytes bell
  | banner => exact absurd goesOn Bool.noConfusion
  | reset => exact absurd goesOn Bool.noConfusion
  | _ => rfl

theorem saved_operate {op : Operation} (goesOn : op.startsOver = false)
    (keep : ∀ a ∈ (t.parser.feedAll op.received).2, a.saves = false) (bell : β) :
    (t.operate op bell).1.saved = t.saved := by
  cases op with
  | handle b => exact t.saved_print keep bell
  | print bytes => exact t.saved_print keep bell
  | banner => exact absurd goesOn Bool.noConfusion
  | reset => exact absurd goesOn Bool.noConfusion
  | _ => rfl

/-- **The saved position waits.** The sequences are those of the bytes of all operations
together: one may be begun in one of them and completed in another. -/
theorem saved_operateAll {ops : List Operation} (goOn : ∀ op ∈ ops, op.startsOver = false)
    (keep : ∀ a ∈ (t.parser.feedAll (ops.flatMap Operation.received)).2, a.saves = false)
    (bell : β) : (t.operateAll ops bell).1.saved = t.saved := by
  induction ops generalizing t bell with
  | nil => rfl
  | cons op ops ih =>
    obtain ⟨here, later⟩ := List.forall_mem_cons.1 goOn
    rw [List.flatMap_cons, Parser.feedAll_append] at keep
    obtain ⟨first, rest⟩ := List.forall_mem_append.1 keep
    rw [← t.parser_operate here bell] at rest
    rw [operateAll, ih _ later rest, t.saved_operate here first]

/-! ## There and back -/

/-- Saving writes the position and does nothing else. -/
theorem print_save {t : Terminal cols rows} (placed : t.MarkerPlaced) (ground : t.parser = .ground)
    (bell : β) : t.print (Csi.bytes [] 0x73) bell = ({ t with saved := t.cursor }, bell) := by
  have asks : (Csi.ofBytes [] 0x73).command? = some .saveCursor := rfl
  have saved : t.act (.csi (Csi.ofBytes [] 0x73)) = { t.lift.place with saved := t.cursor } := by
    rw [act_csi t asks]
    rfl
  rw [print_sequence placed ground (by decide) (by decide), saved, placed.place_lift]

/-- Restoring moves the cursor to the saved position, or to the nearest one that is
addressable. -/
theorem yields_restore {t : Terminal cols rows} (bounds : t.InBounds) (placed : t.MarkerPlaced)
    (ground : t.parser = .ground) :
    t.Yields (Csi.bytes [] 0x75) t.cell? ⟨t.saved.x, min t.saved.y (t.lines - 1)⟩ := by
  apply yields_motion placed ground (by decide) (by decide) rfl
  have inside : t.saved.x = min t.saved.x (cols - 1) := by
    have column := bounds.saved_x
    omega
  rw [← lines_lift]
  nth_rewrite 1 [inside]
  rfl

/-- After a run without a reset it is the position that was saved before the run. -/
theorem yields_restore_after (hc : 0 < cols) (hr : 0 < rows) {t : Terminal cols rows}
    (h : t.Reachable) (ground : t.parser = .ground) {ops : List Operation}
    (goOn : ∀ op ∈ ops, op.startsOver = false)
    (none : SavesNothing (ops.flatMap Operation.received)) (bell : β) :
    let u := (t.operateAll ops bell).1
    u.parser = .ground →
      u.Yields (Csi.bytes [] 0x75) u.cell? ⟨t.saved.x, min t.saved.y (u.lines - 1)⟩ := by
  intro u complete
  have reached : u.Reachable := h.operateAll ops bell
  have keep := (savesNothing_iff _).1 none
  rw [← ground] at keep
  have still : u.saved = t.saved := t.saved_operateAll goOn keep bell
  rw [← still]
  exact yields_restore (reached.inBounds hc hr) reached.markerPlaced complete

/-- **Restoring goes back to where the position was saved.** A terminal outside any sequence is
told to save the position.

Whatever bytes follow, if they complete no sequence that saves it again and end outside any
sequence, a restore puts the cursor exactly where it was, and changes nothing else of what the
bytes have left. And the same is true of any run of operations without a reset, the status row
reserved and released on the way as often as one likes, but for this: the cursor is brought up
to the last row that is addressable in the end. -/
theorem restore_returns_to_saved (hc : 0 < cols) (hr : 0 < rows) {t : Terminal cols rows}
    (h : t.Reachable) (ground : t.parser = .ground) (bell : β) :
    let marked := t.print (Csi.bytes [] 0x73) bell
    (∀ bytes, SavesNothing bytes →
      let u := (marked.1.print bytes marked.2).1
      u.parser = .ground → u.Yields (Csi.bytes [] 0x75) u.cell? t.cursor) ∧
    ∀ ops : List Operation, (∀ op ∈ ops, op.startsOver = false) →
      SavesNothing (ops.flatMap Operation.received) →
      let u := (marked.1.operateAll ops marked.2).1
      u.parser = .ground →
        u.Yields (Csi.bytes [] 0x75) u.cell? ⟨t.cursor.x, min t.cursor.y (u.lines - 1)⟩ := by
  intro marked
  have mark : marked = ({ t with saved := t.cursor }, bell) := print_save h.markerPlaced ground bell
  have reached : marked.1.Reachable := h.operate (.print (Csi.bytes [] 0x73)) bell
  have saved : marked.1.saved = t.cursor := by rw [mark]
  have fresh : marked.1.parser = .ground := by
    rw [mark]
    exact ground
  constructor
  · intro bytes none u complete
    have received : [Operation.print bytes].flatMap Operation.received = bytes :=
      List.append_nil bytes
    rw [← received] at none
    have restored := yields_restore_after hc hr reached fresh
      (List.forall_mem_singleton.2 rfl) none marked.2 complete
    -- the rows are still those among which the cursor was
    have row : min t.cursor.y (u.lines - 1) = t.cursor.y := by
      have inside := (h.inBounds hc hr).cursor_y
      have lines : u.lines = marked.1.lines := marked.1.lines_print bytes marked.2
      have lines' : marked.1.lines = t.lines := t.lines_print _ bell
      omega
    rw [saved] at restored
    change u.Yields _ _ ⟨t.cursor.x, min t.cursor.y (u.lines - 1)⟩ at restored
    rw [row] at restored
    exact restored
  · intro ops goOn none u complete
    rw [← saved]
    exact yields_restore_after hc hr reached fresh goOn none marked.2 complete

/-- The position is saved in the last row. Text scrolls the page, a sequence with another final
byte is broken off by a letter, and a restore goes back; and after the status row is reserved
half way through a sequence, a restore goes to the row above it. -/
theorem restore_returns_to_saved_in_the_last_row :
    let t := ((create 4 3 { statusLine := false }).operateAll
      [.banner, .print [0x41, 0x42]] (⟨0⟩ : Bell.Tally)).1
    let bytes : List UInt8 := [0x0A, 0x43, 0x1B, 0x73, 0x1B, 0x5B, 0x32, 0x4A, 0x1B, 0x5B, 0x07, 0x48]
    let ops : List Operation := [.print [0x0A, 0x1B, 0x5B], .setStatusLine true, .handle 0x48]
    let marked := t.print (Csi.bytes [] 0x73) (⟨0⟩ : Bell.Tally)
    t.Reachable ∧ t.parser = .ground ∧ t.cursor = ⟨2, 2⟩ ∧
      SavesNothing bytes ∧ SavesNothing (ops.flatMap Operation.received) ∧
      (marked.1.print bytes marked.2).1.Yields (Csi.bytes [] 0x75)
        (marked.1.print bytes marked.2).1.cell? ⟨2, 2⟩ ∧
      (marked.1.operateAll ops marked.2).1.Yields (Csi.bytes [] 0x75)
        (marked.1.operateAll ops marked.2).1.cell? ⟨2, 1⟩ := by
  intro t bytes ops marked
  have reached : t.Reachable := (Reachable.create _).operateAll _ _
  have ground : t.parser = .ground := by decide +kernel
  have cursor : t.cursor = ⟨2, 2⟩ := by decide +kernel
  have none : SavesNothing bytes := by decide +kernel
  have none' : SavesNothing (ops.flatMap Operation.received) := by decide +kernel
  obtain ⟨sent, operated⟩ := restore_returns_to_saved (by decide) (by decide) reached ground
    (⟨0⟩ : Bell.Tally)
  have back := sent bytes none (by decide +kernel)
  have back' := operated ops (by decide) none' (by decide +kernel)
  have lines : (marked.1.operateAll ops marked.2).1.lines = 2 := by decide +kernel
  refine ⟨reached, ground, cursor, none, none', ?_, ?_⟩
  · rw [cursor] at back
    exact back
  · rw [cursor, lines] at back'
    exact back'

end Terminal

end SerialTerminal
