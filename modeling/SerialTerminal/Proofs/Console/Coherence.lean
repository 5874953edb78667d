/-
The screen keeps up with the settings and with the mode.

The status row is redrawn when the router tells of an event, and at no other time. That
it is never stale is therefore an invariant, and the proof has three parts. Bytes from
the host or echoed in the local mode leave the row alone, because they always do. A key
that changes the mode or puts settings into effect tells of it (`dispatch_cases`), and
the row is drawn afterwards, over whatever a configuration page left there. Every
other key leaves mode and settings as they are.

What a configuration page may do is said by `DrawsOnly`: it draws when it is entered, and
its keys edit the draft alone. The built-in page keeps to that. No bound on the size of
the grid is needed; a grid of one row has no status row, and one of two or three is drawn
over by the page and then put right.
-/
import SerialTerminal.Proofs.Console.Run
import SerialTerminal.Proofs.Terminal.Isolation

set_option autoImplicit false

namespace SerialTerminal

/-! ## Surfaces that only draw -/

/-- A surface that draws on the page when it is entered, in any way it likes, and whose
keys leave the terminal alone. -/
structure ConfigSurface.DrawsOnly (σ : Type) (cols rows : Nat) [ConfigSurface σ cols rows] :
    Prop where
  enter_draws : ∀ (surface : σ) (settings : Settings) (t : Terminal cols rows),
    ∃ ops : List Operation, (∀ op ∈ ops, op.draws = true) ∧
      (ConfigSurface.enter surface settings t).2 = (t.operateAll ops Bell.Silent.mk).1
  key_keeps : ∀ (surface : σ) (token : KeyToken) (draft : Settings) (t : Terminal cols rows),
    (ConfigSurface.key surface token draft t).terminal = t

namespace ConfigPage

variable {cols rows : Nat}

theorem exists_draws_writeLines (t : Terminal cols rows) (row col : Nat) (lines : List String) :
    ∃ ops : List Operation, (∀ op ∈ ops, op.draws = true) ∧
      writeLines t row col lines = (t.operateAll ops Bell.Silent.mk).1 := by
  induction lines generalizing t row with
  | nil => exact ⟨[], List.forall_mem_nil _, rfl⟩
  | cons line rest ih =>
    obtain ⟨ops, draws, written⟩ := ih (t.writeText row col (Text.encode line)) (row + 1)
    refine ⟨.writeText row col (Text.encode line) :: ops, ?_, written⟩
    exact List.forall_mem_cons.2 ⟨rfl, draws⟩

/-- **The built-in page only draws.** -/
theorem drawsOnly (cols rows : Nat) : ConfigSurface.DrawsOnly ConfigPage cols rows where
  enter_draws := by
    intro page settings t
    let heading := [Operation.clearWith attrs, .writeText 0 0 (Text.encode title)]
    obtain ⟨ops, draws, written⟩ := exists_draws_writeLines
      (t.operateAll heading Bell.Silent.mk).1 firstEntry.1 firstEntry.2 (entries settings)
    refine ⟨heading ++ ops, ?_, written⟩
    have first : ∀ op ∈ heading, op.draws = true :=
      List.forall_mem_cons.2 ⟨rfl, List.forall_mem_singleton.2 rfl⟩
    exact List.forall_mem_append.2 ⟨first, draws⟩
  key_keeps := fun _ _ _ _ => rfl

end ConfigPage

/-! ## What a token changes -/

namespace Router

variable {β σ : Type} [Bell β] {cols rows txSlots : Nat}

/-- What can become of a token, in terms of the mode, the terminal and the event. -/
inductive Outcome (r : Router) (e : Endpoints β σ cols rows txSlots) :
    Router × Endpoints β σ cols rows txSlots × Option RouterEvent → Prop where
  /-- Nothing is told. The mode stays, and the terminal has read some bytes at most. -/
  | quiet {r' : Router} {e' : Endpoints β σ cols rows txSlots} (bytes : List UInt8)
      (mode_eq : r'.mode = r.mode)
      (printed : e'.terminal = (e.terminal.print bytes e.bell).1) : Outcome r e (r', e', none)
  /-- The mode is told, and something may have been drawn. -/
  | entered {r' : Router} {e' : Endpoints β σ cols rows txSlots} (ops : List Operation)
      (draws : ∀ op ∈ ops, op.draws = true)
      (drawn : e'.terminal = (e.terminal.operateAll ops Bell.Silent.mk).1) :
      Outcome r e (r', e', some (.entered r'.mode))
  /-- Editing is over, and the draft is told. -/
  | configured {r' : Router} {e' : Endpoints β σ cols rows txSlots}
      (mode_eq : r'.mode = .online) (kept : e'.terminal = e.terminal) :
      Outcome r e (r', e', some (.configured r'.draft))

variable [ConfigSurface σ cols rows]

theorem outcome_command (surface : ConfigSurface.DrawsOnly σ cols rows) (r : Router) (a : AltKey)
    (settings : Settings) (e : Endpoints β σ cols rows txSlots) :
    r.Outcome e (r.command a settings e) := by
  cases a with
  | config =>
    obtain ⟨ops, draws, drawn⟩ := surface.enter_draws e.surface settings e.terminal
    exact .entered ops draws drawn
  | toggleLocal =>
    obtain ⟨mode, draft⟩ := r
    cases mode with
    | online => exact .entered [] (List.forall_mem_nil _) rfl
    | loopback => exact .entered [] (List.forall_mem_nil _) rfl
    -- editing is not to be toggled
    | config => exact .quiet [] rfl rfl
  | record => exact .quiet [] rfl rfl
  | transmit => exact .quiet [] rfl rfl

theorem outcome_deliver (surface : ConfigSurface.DrawsOnly σ cols rows) (r : Router)
    (token : KeyToken) (e : Endpoints β σ cols rows txSlots) :
    r.Outcome e (r.deliver token e) := by
  obtain ⟨mode, draft⟩ := r
  cases mode with
  | online => exact .quiet [] rfl rfl
  | loopback => exact .quiet token.bytes rfl rfl
  | config =>
    have kept := surface.key_keeps e.surface token draft e.terminal
    rw [deliver]
    dsimp only
    split
    · exact .configured rfl kept
    · exact .quiet [] rfl kept

/-- **No token leads to anything else**: the mode and the settings change only with an
event. -/
theorem outcome_dispatch (surface : ConfigSurface.DrawsOnly σ cols rows) (r : Router)
    (token : KeyToken) (settings : Settings) (e : Endpoints β σ cols rows txSlots) :
    r.Outcome e (r.dispatch token settings e) := by
  cases token with
  | alt a => exact outcome_command surface r a settings e
  | byte b => exact outcome_deliver surface r (.byte b) e
  | special k => exact outcome_deliver surface r (.special k) e

end Router

/-! ## The invariant -/

namespace Console

variable {ℓ κ β σ : Type} {cols rows : Nat}

/-- The row that the status line is now. -/
def statusRow (c : Console cols rows) : Nat → Glyph :=
  Screen.statusGlyph cols (Text.encode c.router.mode.label) (Text.encode c.settings.serial.text)
    c.settings.colors.status

/-- The terminal is set up as the settings say, and a reserved last row shows the status
line. -/
structure Coherent (c : Console cols rows) : Prop where
  reachable : c.terminal.Reachable
  setup_eq : c.terminal.setup = c.settings.setup rows
  statusShown : c.terminal.screen.hasStatus = true → c.terminal.setLastRow c.statusRow = c.terminal

/-- Only the terminal, the mode and the settings count. -/
theorem Coherent.congr {c c' : Console cols rows} (h : c.Coherent)
    (terminal_eq : c'.terminal = c.terminal) (mode_eq : c'.router.mode = c.router.mode)
    (settings_eq : c'.settings = c.settings) : c'.Coherent := by
  refine ⟨?_, ?_, ?_⟩
  · rw [terminal_eq]
    exact h.reachable
  · rw [terminal_eq, settings_eq]
    exact h.setup_eq
  · rw [terminal_eq, statusRow, mode_eq, settings_eq]
    exact h.statusShown

/-- **Redrawing makes the status row fresh**, whatever was there. -/
theorem coherent_redrawStatus {c : Console cols rows} (reachable : c.terminal.Reachable)
    (setup_eq : c.terminal.setup = c.settings.setup rows) : c.redrawStatus.Coherent where
  reachable := reachable.operate (.writeStatus _ _) Bell.Silent.mk
  setup_eq := (c.terminal.setup_writeStatus _ _).trans setup_eq
  statusShown := by
    intro reserved
    have before : c.terminal.screen.hasStatus = true :=
      (congrArg Terminal.Setup.statusLine (c.terminal.setup_writeStatus _ _)).symm.trans reserved
    have colors : c.terminal.colors = c.settings.colors := congrArg Terminal.Setup.colors setup_eq
    have drawn : c.redrawStatus.terminal = c.terminal.setLastRow c.statusRow := by
      rw [statusRow, ← colors]
      exact reachable.writeStatus_eq before _ _
    have same : c.redrawStatus.statusRow = c.statusRow := rfl
    rw [same, drawn, Terminal.setLastRow_setLastRow]

/-- Bytes that the terminal reads leave the status row fresh. -/
theorem Coherent.print [Bell β] {c : Console cols rows} (h : c.Coherent) (bytes : List UInt8)
    (bell : β) : { c with terminal := (c.terminal.print bytes bell).1 }.Coherent where
  reachable := h.reachable.operate (.print bytes) bell
  setup_eq := (c.terminal.setup_print bytes bell).trans h.setup_eq
  statusShown := by
    intro reserved
    have before : c.terminal.screen.hasStatus = true :=
      (congrArg Terminal.Setup.statusLine (c.terminal.setup_print bytes bell)).symm.trans reserved
    have comm := h.reachable.print_setLastRow before c.statusRow bytes bell
    rw [h.statusShown before] at comm
    exact (congrArg Prod.fst comm).symm

theorem coherent_apply [SerialLink ℓ] {c : Console cols rows} (reachable : c.terminal.Reachable)
    (settings : Settings) (link : ℓ) : (c.apply settings link).1.Coherent := by
  have applied := reachable.operate (.apply settings) Bell.Silent.mk
  apply coherent_redrawStatus
  · exact applied.operate .reset Bell.Silent.mk
  · exact (Terminal.setup_reset _).trans (c.terminal.setup_apply settings)

theorem coherent_start [Bell β] (cols rows : Nat) (settings : Settings) (layout : Layout)
    (bell : β) : (start cols rows settings layout bell).1.Coherent := by
  apply coherent_redrawStatus
  · exact (Terminal.Reachable.create settings).operate .banner Bell.Silent.mk
  · exact (Terminal.setup_banner _).trans (Terminal.setup_create cols rows settings)

/-! ## One turn -/

section Turn

theorem Coherent.pollKeyboard [KeyboardHost κ] {c : Console cols rows} (h : c.Coherent)
    (now : Instant) (d : Devices ℓ κ β σ) : (c.pollKeyboard now d).1.Coherent := by
  obtain ⟨keyboard, keys, same⟩ := c.exists_pollKeyboard_eq now d
  rw [same]
  exact h.congr rfl rfl rfl

variable [Bell β] {c : Console cols rows}

theorem Coherent.interpretReceived (h : c.Coherent) (d : Devices ℓ κ β σ) :
    (c.interpretReceived d).1.Coherent :=
  (h.print (c.rx.drain rxBatch).2 d.bell).congr rfl rfl rfl

/-- The state in which the first key of a turn is routed. -/
theorem Coherent.takeKeys [KeyboardHost κ] (h : c.Coherent) (now : Instant)
    (d : Devices ℓ κ β σ) : (c.beforeRouting now d).1.takeKeys.1.Coherent := by
  have waiting := (h.interpretReceived d).pollKeyboard now (c.interpretReceived d).2
  exact waiting.congr rfl rfl rfl

variable [SerialLink ℓ] [ConfigSurface σ cols rows]

/-- **A token leaves the status row fresh**: what it changes is told, and then the row is
drawn anew. -/
theorem Coherent.routeKey (surface : ConfigSurface.DrawsOnly σ cols rows)
    {s : Console cols rows × Devices ℓ κ β σ} (h : s.1.Coherent) (token : KeyToken) :
    (routeKey s token).1.Coherent := by
  obtain ⟨c, d⟩ := s
  have outcome := c.router.outcome_dispatch surface token c.settings
    (⟨c.terminal, c.tx, d.bell, d.surface⟩ : Endpoints β σ cols rows txSlots)
  unfold Console.routeKey
  dsimp only
  generalize c.router.dispatch token c.settings
    (⟨c.terminal, c.tx, d.bell, d.surface⟩ : Endpoints β σ cols rows txSlots) = out at outcome ⊢
  cases outcome with
  | quiet bytes mode_eq printed => exact (h.print bytes d.bell).congr printed mode_eq rfl
  | entered ops draws drawn =>
    apply coherent_redrawStatus
    · change Terminal.Reachable (Endpoints.terminal _)
      rw [drawn]
      exact h.reachable.operateAll ops _
    · change Terminal.setup (Endpoints.terminal _) = _
      rw [drawn, Terminal.setup_operateAll_of_draws _ draws]
      exact h.setup_eq
  | configured mode_eq kept =>
    refine coherent_apply ?_ _ d.link
    change Terminal.Reachable (Endpoints.terminal _)
    rw [kept]
    exact h.reachable

theorem Coherent.routeAll (surface : ConfigSurface.DrawsOnly σ cols rows)
    {s : Console cols rows × Devices ℓ κ β σ} (h : s.1.Coherent) (tokens : List KeyToken) :
    (routeAll s tokens).1.Coherent := by
  induction tokens generalizing s with
  | nil => exact h
  | cons token tokens ih => exact ih (h.routeKey surface token)

omit [Bell β] [ConfigSurface σ cols rows] in
theorem Coherent.transmitQueued (h : c.Coherent) (d : Devices ℓ κ β σ) :
    (c.transmitQueued d).1.Coherent :=
  h.congr rfl rfl rfl

variable [KeyboardHost κ]

/-- One turn keeps what was coherent so. -/
theorem Coherent.poll (surface : ConfigSurface.DrawsOnly σ cols rows) (h : c.Coherent)
    (now : Instant) (d : Devices ℓ κ β σ) : (c.poll now d).1.Coherent := by
  have routed : (c.beforeTransmit now d).1.Coherent := by
    rw [beforeTransmit, routeKeys_eq]
    exact Coherent.routeAll surface (h.takeKeys now d) _
  rw [poll_eq]
  exact routed.transmitQueued _

/-- **Through every run the console stays coherent.** -/
theorem Coherent.run (surface : ConfigSurface.DrawsOnly σ cols rows)
    {s : Console cols rows × Devices ℓ κ β σ} (h : s.1.Coherent) (stimuli : List Stimulus) :
    (run s stimuli).1.Coherent := by
  induction stimuli generalizing s with
  | nil => exact h
  | cons e stimuli ih =>
    rw [run_cons]
    apply ih
    cases e with
    | receive b => exact h.congr rfl rfl rfl
    | poll now => exact h.poll surface now s.2

omit [KeyboardHost κ] in
theorem Coherent.routingsOf (surface : ConfigSurface.DrawsOnly σ cols rows)
    {s : Console cols rows × Devices ℓ κ β σ} (h : s.1.Coherent) (tokens : List KeyToken) :
    ∀ r ∈ routingsOf s tokens, r.state.1.Coherent := by
  induction tokens generalizing s with
  | nil => exact List.forall_mem_nil _
  | cons token rest ih => exact List.forall_mem_cons.2 ⟨h, ih (h.routeKey surface token)⟩

/-- **Every key of a run meets a coherent console.** -/
theorem Coherent.routings (surface : ConfigSurface.DrawsOnly σ cols rows)
    {s : Console cols rows × Devices ℓ κ β σ} (h : s.1.Coherent) (stimuli : List Stimulus) :
    ∀ r ∈ routings s stimuli, r.state.1.Coherent := by
  induction stimuli generalizing s with
  | nil => exact List.forall_mem_nil _
  | cons e rest ih =>
    have later : (stimulate s e).1.Coherent := h.run surface [e]
    refine List.forall_mem_append.2 ⟨?_, ih later⟩
    cases e with
    | receive b => exact List.forall_mem_nil _
    | poll now => exact Coherent.routingsOf surface (h.takeKeys now s.2) _

end Turn

/-! ## What is shown -/

section Shown

variable {c : Console cols rows}

theorem Coherent.hasStatus_iff (h : c.Coherent) :
    c.terminal.screen.hasStatus = true ↔ c.settings.statusLine = true ∧ 1 < rows := by
  have status : c.terminal.screen.hasStatus = (c.settings.statusLine && decide (1 < rows)) :=
    congrArg Terminal.Setup.statusLine h.setup_eq
  rw [status, Bool.and_eq_true, decide_eq_true_eq]

/-- Every cell of a reserved row is that of the status line, as displayed and as
written. -/
theorem Coherent.cells (h : c.Coherent) (reserved : c.terminal.screen.hasStatus = true) {x : Nat}
    (hx : x < cols) :
    c.terminal.cell? x (rows - 1) = some (c.statusRow x) ∧
      c.terminal.screen.cell? x (rows - 1) = some (c.statusRow x) := by
  have spare := c.terminal.screen.one_lt_rows reserved
  have there : (c.terminal.screen.cell? x (rows - 1)).isSome :=
    (Screen.isSome_cell? ..).2 ⟨hx, by omega⟩
  obtain ⟨g, hg⟩ := Option.isSome_iff_exists.1 there
  have same : g = c.statusRow x :=
    (Terminal.setLastRow_eq_self_iff _ _).1 (h.statusShown reserved) x (rows - 1) g (by omega) hg
  rw [← h.reachable.cell?_last_row reserved, hg, same]
  exact ⟨rfl, rfl⟩

/-- Drawing the status line once more would change nothing. -/
theorem Coherent.drawStatus_eq (h : c.Coherent) :
    c.terminal.drawStatus c.router.mode c.settings.serial = c.terminal := by
  have colors : c.terminal.colors = c.settings.colors := congrArg Terminal.Setup.colors h.setup_eq
  cases reserved : c.terminal.screen.hasStatus with
  | false => exact h.reachable.writeStatus_eq_self reserved _ _
  | true =>
    rw [Terminal.drawStatus, h.reachable.writeStatus_eq reserved, colors]
    exact h.statusShown reserved

end Shown

/-- **The terminal follows the settings, and the status line shows them and the mode.**
After the start and after every part of a run, whatever arrives, is typed and is
configured, policy and colors are those in effect; the status row is reserved exactly when
the settings ask for it and the grid can spare it; and then it shows what drawing it now
would show. -/
theorem terminal_follows_settings [SerialLink ℓ] [KeyboardHost κ] [Bell β]
    [ConfigSurface σ cols rows] (surface : ConfigSurface.DrawsOnly σ cols rows)
    (settings : Settings) (layout : Layout) (d : Devices ℓ κ β σ) (stimuli : List Stimulus) :
    let c := (run (started cols rows settings layout d) stimuli).1
    c.terminal.policy = c.settings.policy ∧ c.terminal.colors = c.settings.colors ∧
      (c.terminal.screen.hasStatus = true ↔ c.settings.statusLine = true ∧ 1 < rows) ∧
      (c.terminal.screen.hasStatus = true → ∀ x < cols,
        c.terminal.cell? x (rows - 1) = some (c.statusRow x) ∧
          c.terminal.screen.cell? x (rows - 1) = some (c.statusRow x)) ∧
      c.terminal.drawStatus c.router.mode c.settings.serial = c.terminal := by
  intro c
  have begun : (started cols rows settings layout d).1.Coherent :=
    coherent_start cols rows settings layout d.bell
  have coherent : c.Coherent := begun.run surface stimuli
  refine ⟨congrArg Terminal.Setup.policy coherent.setup_eq,
    congrArg Terminal.Setup.colors coherent.setup_eq, coherent.hasStatus_iff, ?_,
    coherent.drawStatus_eq⟩
  intro reserved x hx
  exact coherent.cells reserved hx

/-- The built-in page on a grid of three rows, where its first entry goes to the row of the
status line; the host clears the screen meanwhile. -/
theorem terminal_follows_settings_on_short_screen :
    let d : Devices OpenLink KeyScript Bell.Silent ConfigPage :=
      ⟨⟨⟩, ⟨[.ofKeys ⟨0x04⟩ [0x06], .released]⟩, ⟨⟩, ⟨⟩⟩
    let c := (run (started 20 3 {} .us d) [.poll 0, .receive 0x0C, .poll 10]).1
    ConfigSurface.DrawsOnly ConfigPage 20 3 ∧ c.router.mode = .config ∧
      c.terminal.policy = c.settings.policy ∧
      c.terminal.screen.cell? 0 2 = some (.ofCode 0x43 (ColorScheme.status {})) := by
  intro d c
  have surface := ConfigPage.drawsOnly 20 3
  have mode : c.router.mode = .config := by decide +kernel
  have inEffect : c.settings = {} := by decide +kernel
  have follows := terminal_follows_settings surface {} .us d [.poll 0, .receive 0x0C, .poll 10]
  -- from here on it does not matter how the run got there
  generalize hend : (run (started 20 3 {} .us d) [.poll 0, .receive 0x0C, .poll 10]).1 = e
    at follows
  have same : c = e := hend
  rw [same] at mode inEffect ⊢
  obtain ⟨policy, -, reserved, cells, -⟩ := follows
  have shown : e.terminal.screen.hasStatus = true := by
    rw [reserved, inEffect]
    exact ⟨rfl, by decide⟩
  refine ⟨surface, mode, policy, ?_⟩
  rw [(cells shown 0 (by decide)).2, statusRow, mode, inEffect]
  decide +kernel

end Console

end SerialTerminal
