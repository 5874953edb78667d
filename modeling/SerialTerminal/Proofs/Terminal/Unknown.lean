/-
Input that is not understood.

The interpreter knows five control bytes that act on the screen, the bell, and sequences with
thirteen final bytes. Here the rest is listed from the outside, by the bytes alone
(`Action.IsUnknown`): every other byte that is no character, every other final byte, and the
modes that are not about the cursor. **None of it leaves a trace**, on the screen as it is
written or as it is displayed, in the positions, in the colors or in the marker; only the bell
hears the bell byte (`unknown_input_is_invisible`).

What is in the middle of a sequence is counted here as well, because the bytes of a sequence do
nothing before the last one. The parser has taken notice of them, and a sequence that is
complete has left it where it was.
-/
import SerialTerminal.Proofs.Terminal.Sequence

set_option autoImplicit false

namespace SerialTerminal

/-! ## What is understood -/

/-- The control bytes that act on the screen: backspace, tab, line feed, form feed and carriage
return. -/
def Control.acting : List UInt8 :=
  [0x08, 0x09, 0x0A, 0x0C, 0x0D]

/-- The final bytes of the sequences that are known: A, B, C, D, H, J, K, S, h, l, m, s, u. -/
def Csi.knownFinals : List UInt8 :=
  [0x41, 0x42, 0x43, 0x44, 0x48, 0x4A, 0x4B, 0x53, 0x68, 0x6C, 0x6D, 0x73, 0x75]

/-- The final bytes of a mode sequence, h and l. -/
def Csi.modeFinals : List UInt8 :=
  [0x68, 0x6C]

/-- The sequence has a final byte that is not known, or it is about another mode than the one
that shows the cursor. -/
def Csi.IsUnknown (c : Csi) : Prop :=
  c.final ∉ knownFinals ∨ c.final ∈ modeFinals ∧ ¬ (c.isPrivate = true ∧ c.param 0 = 25)

/-- Nothing is understood by it: a byte that was absorbed, a control byte that does not act on
the screen, or a sequence that is not known. -/
def Action.IsUnknown : Action → Prop
  | .none => True
  | .print _ => False
  | .control b => b ∉ Control.acting
  | .csi c => c.IsUnknown

instance (c : Csi) : Decidable c.IsUnknown :=
  inferInstanceAs (Decidable (c.final ∉ Csi.knownFinals ∨
    c.final ∈ Csi.modeFinals ∧ ¬ (c.isPrivate = true ∧ c.param 0 = 25)))

instance : (a : Action) → Decidable a.IsUnknown
  | .none => inferInstanceAs (Decidable True)
  | .print _ => inferInstanceAs (Decidable False)
  | .control b => inferInstanceAs (Decidable (b ∉ Control.acting))
  | .csi c => inferInstanceAs (Decidable c.IsUnknown)

/-! ## It asks for nothing -/

/-- A control byte that does not act on the screen is the bell or has no meaning. -/
theorem Control.ofByte?_of_not_acting {b : UInt8} (unknown : b ∉ acting) :
    (ofByte? b).all (· == .bell) = true := by
  unfold ofByte?
  split
  case h_1 => rfl
  case h_7 => rfl
  -- the five others are in the list
  all_goals exact absurd (by decide) unknown

/-- A final byte that asks for something is known. -/
theorem Csi.final_mem_knownFinals {c : Csi} {command : Command}
    (asks : c.command? = some command) : c.final ∈ knownFinals := by
  rw [final_of_command? asks]
  cases command with
  | showCursor visible => cases visible <;> decide
  | _ => exact List.mem_of_elem_eq_true rfl

/-- A mode sequence that asks for something is about the cursor. -/
theorem Csi.cursorMode_of_command? {c : Csi} {command : Command} (mode : c.final ∈ modeFinals)
    (asks : c.command? = some command) : c.isPrivate = true ∧ c.param 0 = 25 := by
  have visibility : ∃ visible, c.cursorVisibility? visible = some command := by
    unfold command? at asks
    rcases List.mem_cons.1 mode with final | low
    · rw [final] at asks
      exact ⟨true, asks⟩
    · rw [List.mem_singleton.1 low] at asks
      exact ⟨false, asks⟩
  obtain ⟨visible, asks⟩ := visibility
  by_contra other
  have none : c.cursorVisibility? visible = none := if_neg other
  cases none.symm.trans asks

theorem Csi.IsUnknown.command?_eq {c : Csi} (unknown : c.IsUnknown) : c.command? = none := by
  cases asks : c.command? with
  | none => rfl
  | some command =>
    rcases unknown with final | ⟨mode, other⟩
    · exact absurd (Csi.final_mem_knownFinals asks) final
    · exact absurd (Csi.cursorMode_of_command? mode asks) other

theorem Action.IsUnknown.isInert {a : Action} (unknown : a.IsUnknown) : a.isInert = true := by
  cases a with
  | none => rfl
  | print code => exact unknown.elim
  | control b => exact Control.ofByte?_of_not_acting unknown
  | csi c => exact Option.isNone_iff_eq_none.2 (Csi.IsUnknown.command?_eq unknown)

/-- A complete sequence is unknown by its final byte, or by the mode that its first number
names. -/
theorem Csi.isUnknown_ofBytes {body : List UInt8} {final : UInt8} :
    (ofBytes body final).IsUnknown ↔ final ∉ knownFinals ∨
      final ∈ modeFinals ∧ ¬ (Parser.question ∈ body ∧ value body 0 = 25) := by
  have limit : paramLimit = 65535 := rfl
  have number : (ofBytes body final).param 0 = 25 ↔ value body 0 = 25 := by
    rw [param_ofBytes body final (by decide)]
    omega
  have marked : (ofBytes body final).isPrivate = true ↔ Parser.question ∈ body :=
    decide_eq_true_iff
  rw [IsUnknown, number, marked]
  rfl

namespace Terminal

variable {β : Type} [Bell β] {cols rows : Nat} {t : Terminal cols rows}

/-! ## It leaves no trace -/

/-- **A byte that is not understood changes the parser and nothing else.** -/
theorem handle_of_isUnknown (placed : t.MarkerPlaced) {b : UInt8}
    (unknown : (t.parser.feed b).2.IsUnknown) (bell : β) :
    t.handle b bell = ({ t with parser := (t.parser.feed b).1 },
      if (t.parser.feed b).2 = .control Ascii.bel then Bell.ring bell else bell) := by
  rw [handle, receive_of_isInert placed unknown.isInert, rings]
  simp only [decide_eq_true_eq]

/-- A control byte is over when it has been read. -/
theorem handle_of_not_acting (placed : t.MarkerPlaced) (ground : t.parser = .ground) {b : UInt8}
    (control : ¬ (0x20 ≤ b ∧ b ≤ 0x7E)) (other : b ≠ Ascii.esc) (unknown : b ∉ Control.acting)
    (bell : β) : t.handle b bell = (t, if b = Ascii.bel then Bell.ring bell else bell) := by
  have read : t.parser.feed b = (t.parser, .control b) := by
    rw [ground, Parser.feed_ground_of_ne_esc other, if_neg control]
  have handled := handle_of_isUnknown (b := b) placed (by rw [read]; exact unknown) bell
  rw [read] at handled
  simpa only [Action.control.injEq] using handled

/-- So is a sequence, however long it was. -/
theorem print_sequence_of_isUnknown (placed : t.MarkerPlaced) (ground : t.parser = .ground)
    {body : List UInt8} {final : UInt8} (hbody : Csi.IsBody body)
    (hfinal : 0x40 ≤ final ∧ final ≤ 0x7D) (unknown : (Csi.ofBytes body final).IsUnknown)
    (bell : β) : t.print (Csi.bytes body final) bell = (t, bell) := by
  have inert : (Action.csi (Csi.ofBytes body final)).isInert = true :=
    Action.IsUnknown.isInert unknown
  rw [print_sequence placed ground hbody hfinal bell, act_of_isInert placed inert]

/-- So is an escape that opens no sequence, together with the byte after it. -/
theorem print_escape_other (placed : t.MarkerPlaced) (ground : t.parser = .ground) {b : UInt8}
    (other : b ≠ Parser.bracket) (bell : β) : t.print [Ascii.esc, b] bell = (t, bell) := by
  have read := Parser.feedAll_escape_other other
  rw [← ground] at read
  refine Prod.ext ?_ ?_
  · have inert : ∀ a ∈ (t.parser.feedAll [Ascii.esc, b]).2, a.isInert = true := by
      rw [read]
      exact List.forall_mem_cons.2 ⟨rfl, List.forall_mem_singleton.2 rfl⟩
    rw [fst_print_of_isInert placed inert, read]
  · rw [snd_print_eq, read]
    rfl

/-- **Input that is not understood cannot be seen.** Wherever the parser of a terminal stands, a
byte that amounts to nothing known leaves every other part of the terminal exactly as it was,
the marker on the screen included, and rings for the bell byte alone.

Outside any sequence the parser is left as it was too: by a byte that is no character, no escape
and none of the five controls that act on the screen; by a whole sequence, of any length and
with anything in its body, whose final byte is not known or which is about another mode than the
one that shows the cursor; and by an escape with any byte after it but a bracket. -/
theorem unknown_input_is_invisible (h : t.Reachable) :
    (∀ b, (t.parser.feed b).2.IsUnknown → ∀ bell : β,
      t.handle b bell = ({ t with parser := (t.parser.feed b).1 },
        if (t.parser.feed b).2 = .control Ascii.bel then Bell.ring bell else bell)) ∧
    (t.parser = .ground →
      (∀ b, ¬ (0x20 ≤ b ∧ b ≤ 0x7E) → b ≠ Ascii.esc → b ∉ Control.acting → ∀ bell : β,
        t.handle b bell = (t, if b = Ascii.bel then Bell.ring bell else bell)) ∧
      (∀ body final, Csi.IsBody body → (0x40 ≤ final ∧ final ≤ 0x7D) →
        (final ∉ Csi.knownFinals ∨
          final ∈ Csi.modeFinals ∧ ¬ (Parser.question ∈ body ∧ Csi.value body 0 = 25)) →
        ∀ bell : β, t.print (Csi.bytes body final) bell = (t, bell)) ∧
      ∀ b, b ≠ Parser.bracket → ∀ bell : β, t.print [Ascii.esc, b] bell = (t, bell)) := by
  have placed := h.markerPlaced
  refine ⟨fun b unknown => handle_of_isUnknown placed unknown, fun ground => ⟨?_, ?_, ?_⟩⟩
  · intro b control other unknown
    exact handle_of_not_acting placed ground control other unknown
  · intro body final hbody hfinal unknown
    exact print_sequence_of_isUnknown placed ground hbody hfinal (Csi.isUnknown_ofBytes.2 unknown)
  · intro b other
    exact print_escape_other placed ground other

/-- A terminal with a status row and a visible cursor, once outside any sequence and once in the
middle of one: bell and eight-bit bytes, a mode of another number with junk in it, a sequence
with an unknown final byte, and a function key of another make. -/
theorem unknown_input_is_invisible_under_the_cursor :
    let t := ((create 4 3 {}).operateAll [.banner, .print [0x41]] (⟨0⟩ : Bell.Tally)).1
    let u := (t.operateAll [.print [0x1B, 0x5B, 0x32, 0x35]] (⟨0⟩ : Bell.Tally)).1
    let body : List UInt8 := [0x3F, 0x32, 0x07, 0x35, 0x30, 0x3B, 0x32, 0x35]
    t.Reachable ∧ u.Reachable ∧ t.parser = .ground ∧ t.cursorVisible = true ∧
      u.inSequence = true ∧ (u.parser.feed 0x68).2.IsUnknown ∧
      u.handle 0x68 (⟨0⟩ : Bell.Tally) = ({ u with parser := .ground }, ⟨0⟩) ∧
      t.handle 0x07 (⟨0⟩ : Bell.Tally) = (t, ⟨1⟩) ∧ t.handle 0x9B (⟨0⟩ : Bell.Tally) = (t, ⟨0⟩) ∧
      t.print (Csi.bytes body 0x6C) (⟨0⟩ : Bell.Tally) = (t, ⟨0⟩) ∧
      t.print (Csi.bytes body 0x7A) (⟨0⟩ : Bell.Tally) = (t, ⟨0⟩) ∧
      t.print [Ascii.esc, 0x4F] (⟨0⟩ : Bell.Tally) = (t, ⟨0⟩) := by
  intro t u body
  have reached : t.Reachable := (Reachable.create _).operateAll _ _
  have reached' : u.Reachable := reached.operateAll _ _
  have ground : t.parser = .ground := by decide +kernel
  have unknown : (u.parser.feed 0x68).2.IsUnknown := by decide +kernel
  obtain ⟨absorbed, -⟩ := unknown_input_is_invisible (β := Bell.Tally) reached'
  obtain ⟨-, complete⟩ := unknown_input_is_invisible (β := Bell.Tally) reached
  obtain ⟨controls, sequences, escapes⟩ := complete ground
  have hbody : Csi.IsBody body := by decide
  have mode : ¬ (Parser.question ∈ body ∧ Csi.value body 0 = 25) := by decide +kernel
  refine ⟨reached, reached', ground, by decide +kernel, by decide +kernel, unknown, ?_, ?_, ?_, ?_,
    ?_, ?_⟩
  · exact absorbed 0x68 unknown ⟨0⟩
  · exact controls 0x07 (by decide) (by decide) (by decide) ⟨0⟩
  · exact controls 0x9B (by decide) (by decide) (by decide) ⟨0⟩
  · exact sequences body 0x6C hbody (by decide) (.inr ⟨by decide, mode⟩) ⟨0⟩
  · exact sequences body 0x7A hbody (by decide) (.inl (by decide)) ⟨0⟩
  · exact escapes 0x4F (by decide) ⟨0⟩

end Terminal

end SerialTerminal
