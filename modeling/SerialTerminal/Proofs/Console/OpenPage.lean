/-
The page that is open, and the host.

The mode decides where a key goes. It has no say in what becomes of received bytes: a batch
of them is interpreted in every turn, also while the settings are edited. **A page that a
surface has drawn is ordinary text to the host**, which writes on it, scrolls it and clears
it (`host_writes_on_page`, `host_overwrites_heading`).

So the page is as safe from the host as any text is. Bytes that ask for nothing leave it as
it is displayed, and no byte reaches a reserved status row. Without a key the router stays
where it is, and the settings and the draft with it.
-/
import SerialTerminal.Proofs.Console.Coherence
import SerialTerminal.Proofs.Console.Receive
import SerialTerminal.Proofs.Terminal.Absorbed

set_option autoImplicit false

namespace SerialTerminal

namespace Console

variable {ℓ κ β σ : Type} {cols rows : Nat}

section Quiet

variable [SerialLink ℓ] [KeyboardHost κ] [Bell β] [ConfigSurface σ cols rows]

/-! ## Turns without keys -/

/-- **A turn in which no key is routed**: in every mode a batch is interpreted. -/
theorem poll_quiet (s : Console cols rows × Devices ℓ κ β σ) (now : Instant)
    (none : stimulusRoutings s (.poll now) = []) :
    ∃ keyboard keys tx, (stimulate s (.poll now)).1 =
      { s.1 with
        terminal := (s.1.terminal.print s.1.batch s.2.bell).1
        rx := (s.1.rx.drain rxBatch).1
        keyboard, keys, tx } := by
  obtain ⟨c, d⟩ := s
  let before := c.beforeRouting now d
  have tokens : before.1.takeKeys.2 = [] := by
    rw [← token_routingsOf (before.1.takeKeys.1, before.2) before.1.takeKeys.2]
    exact congrArg (List.map Routing.token) none
  have routed : before.1.routeKeys before.2 = (before.1.takeKeys.1, before.2) := by
    rw [routeKeys_eq, tokens, routeAll_nil]
  obtain ⟨keyboard, keys, tx, link, attached, turn⟩ :=
    c.poll_of_routed now d ⟨before.1.takeKeys.1.tx, routed⟩
  exact ⟨keyboard, keys, tx, congrArg Prod.fst turn⟩

/-- **While no key is routed**, the terminal is sent what the turns interpret, and what was
received meanwhile waits behind that; the router and the settings stay. -/
theorem run_quiet (s : Console cols rows × Devices ℓ κ β σ) (stimuli : List Stimulus)
    (none : routings s stimuli = []) :
    (run s stimuli).1.terminal = (s.1.terminal.print (interpreted s stimuli) s.2.bell).1 ∧
      interpreted s stimuli ++ (run s stimuli).1.rx.toList =
        s.1.rx.toList ++ accepted s stimuli ∧
      (run s stimuli).1.router = s.1.router ∧ (run s stimuli).1.settings = s.1.settings := by
  induction stimuli generalizing s with
  | nil => exact ⟨rfl, (List.append_nil _).symm, rfl, rfl⟩
  | cons e rest ih =>
    obtain ⟨here, later⟩ := List.append_eq_nil_iff.1 none
    obtain ⟨terminal, conserved, router, settings⟩ := ih (stimulate s e) later
    rw [Terminal.fst_print] at terminal ⊢
    cases e with
    | receive b =>
      refine ⟨terminal, ?_, router, settings⟩
      rw [accepted, ← List.append_assoc, ← s.1.toList_rx_receive b]
      exact conserved
    | poll now =>
      obtain ⟨keyboard, keys, tx, after⟩ := poll_quiet s now here
      obtain ⟨taken, left⟩ := s.1.rx.drain_eq rxBatch
      rw [after] at terminal conserved router settings
      refine ⟨?_, ?_, router, settings⟩
      · rw [run_cons, terminal, Terminal.fst_print, interpreted, List.foldl_append]
      · rw [run_cons, interpreted, List.append_assoc, conserved, left, batch, taken,
          ← List.append_assoc, List.take_append_drop, accepted]

end Quiet

/-! ## The built-in page -/

section Page

variable [SerialLink ℓ] [KeyboardHost κ] [Bell β]

variable (cols rows) in
/-- **The host writes on the open page.** From any moment of a run at which the built-in page
is open, and for as long as no key is routed, the terminal is sent what the host sends, 64
bytes in a turn and the rest later, the same as in any other mode. The page stays open, and
the draft and the settings in effect are what they were.

Of the screen as it is displayed this leaves two parts alone: the row of the status line, if
there is one, and everything as long as no byte asks for anything. -/
theorem host_writes_on_page (settings : Settings) (layout : Layout) (d : Devices ℓ κ β ConfigPage)
    (stimuli quiet : List Stimulus) :
    let s := run (started cols rows settings layout d) stimuli
    let c := s.1
    let c' := (run s quiet).1
    c.router.mode = .config → routings s quiet = [] →
      c'.terminal = (c.terminal.print (interpreted s quiet) s.2.bell).1 ∧
        (∀ now, interpreted s [.poll now] = c.rx.toList.take 64) ∧
        interpreted s quiet ++ c'.rx.toList = c.rx.toList ++ accepted s quiet ∧
        c'.router.mode = .config ∧ c'.router.draft = c.router.draft ∧ c'.settings = c.settings ∧
        (c.terminal.screen.hasStatus = true → ∀ x,
          c'.terminal.screen.cell? x (rows - 1) = c.terminal.screen.cell? x (rows - 1)) ∧
        ((∀ a ∈ (c.terminal.parser.feedAll (interpreted s quiet)).2, a.isInert = true) →
          c'.terminal.screen = c.terminal.screen) := by
  intro s c c' editing none
  have begun : (started cols rows settings layout d).1.Coherent :=
    coherent_start cols rows settings layout d.bell
  have reached : c.terminal.Reachable :=
    (begun.run (ConfigPage.drawsOnly cols rows) stimuli).reachable
  obtain ⟨terminal, conserved, router, settings⟩ := run_quiet s quiet none
  refine ⟨terminal, ?_, conserved, ?_, congrArg Router.draft router, settings, ?_, ?_⟩
  · intro now
    rw [interpreted, interpreted, List.append_nil]
    exact (c.rx.drain_eq rxBatch).1
  · exact (congrArg Router.mode router).trans editing
  · intro reserved x
    rw [terminal]
    exact reached.screen_print_last_row reserved _ s.2.bell x
  · intro inert
    rw [terminal, Terminal.fst_print_of_isInert reached.markerPlaced inert s.2.bell]

end Page

/-- **The heading of the open page is overwritten** by one letter of the host, in the cell as
written and as displayed. -/
theorem host_overwrites_heading :
    let d : Devices OpenLink KeyScript Bell.Silent ConfigPage :=
      ⟨⟨⟩, ⟨[.ofKeys ⟨0x04⟩ [0x06]]⟩, ⟨⟩, ⟨⟩⟩
    let s := run (started 4 3 {} .us d) [.poll 0, .receive 0x41]
    let c := s.1
    let c' := (run s [.poll 10]).1
    c.router.mode = .config ∧ routings s [.poll 10] = [] ∧ c'.router.mode = .config ∧
      c.terminal.cell? 0 0 = some (.ofCode 0x54 ConfigPage.attrs) ∧
      c'.terminal.cell? 0 0 = some (.ofCode 0x41 (ColorScheme.text {})) ∧
      c.terminal.screen.cell? 0 0 ≠ c'.terminal.screen.cell? 0 0 := by
  decide +kernel

/-- An escape sequence without a meaning is in two parts, one of them before the page is
opened. -/
theorem host_writes_on_page_in_sequence :
    let d : Devices OpenLink KeyScript Bell.Silent ConfigPage :=
      ⟨⟨⟩, ⟨[.ofKeys ⟨0x04⟩ [0x06]]⟩, ⟨⟩, ⟨⟩⟩
    let s := run (started 4 3 {} .us d) [.receive 0x1B, .receive 0x5B, .poll 0]
    let quiet : List Stimulus := [.receive 0x37, .poll 10, .receive 0x7A, .poll 20]
    let c := s.1
    let c' := (run s quiet).1
    c.router.mode = .config ∧ routings s quiet = [] ∧ c.terminal.inSequence = true ∧
      (∀ a ∈ (c.terminal.parser.feedAll (interpreted s quiet)).2, a.isInert = true) ∧
      c'.terminal.screen = c.terminal.screen := by
  intro d s quiet c c'
  have editing : c.router.mode = .config := by decide +kernel
  have none : routings s quiet = [] := by decide +kernel
  have inert : ∀ a ∈ (c.terminal.parser.feedAll (interpreted s quiet)).2, a.isInert = true := by
    decide +kernel
  obtain ⟨-, -, -, -, -, -, -, kept⟩ := host_writes_on_page 4 3 {} .us d
    [.receive 0x1B, .receive 0x5B, .poll 0] quiet editing none
  refine ⟨editing, none, by decide +kernel, inert, ?_⟩
  -- the screens are compared as they are written here, and not run
  dsimp only [c, c', s]
  exact kept inert

end Console

end SerialTerminal
