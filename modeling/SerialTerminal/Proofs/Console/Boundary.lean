/-
What is on the screen when an edit of the settings begins and when it ends.

A console may have been used for a long time before its settings are edited: the host may
have left an escape sequence half sent, colors switched, a position saved or the last row
written full. None of this may be seen afterwards. When an edit ends, the new settings are
applied, the terminal is reset and the status line drawn, and between them these three
overwrite every part of it. When an edit begins, the built-in page clears what it can, and
where it runs into the status row on a short screen, the status line is drawn over it.

So the past does not come into it. **The terminal after an edit is decided by the settings
that were chosen, and the screen at the beginning of one by the settings in effect**; in
both cases whether the cursor is shown is kept (`edits_begin_and_end_alike`). The end of an
edit needs no invariant at all. Its beginning does: the status row and the colors which it
is drawn in are those of the terminal, and that they are the configured ones is what
`Coherent` says of every key of a run.
-/
import SerialTerminal.Proofs.Console.Coherence
import SerialTerminal.Proofs.Terminal.SamePage

set_option autoImplicit false

namespace SerialTerminal

variable {ℓ κ β σ : Type} {cols rows : Nat}

/-! ## The end of an edit -/

/-- Leaving the surface says which settings were chosen, and no more. -/
theorem Router.dispatch_of_done [Bell β] [ConfigSurface σ cols rows] {txSlots : Nat} {r : Router}
    {token : KeyToken} {e : Endpoints β σ cols rows txSlots} {reply : ConfigReply σ cols rows}
    (mode_eq : r.mode = .config) (plain : token.isAlt = false)
    (reply_eq : ConfigSurface.key e.surface token r.draft e.terminal = reply)
    (done : reply.done = true) (settings : Settings) :
    r.dispatch token settings e =
      (⟨.online, reply.draft⟩,
        { e with surface := reply.surface, terminal := reply.terminal },
        some (.configured reply.draft)) := by
  have delivered : r.dispatch token settings e = r.deliver token e := by
    cases token with
    | alt a => cases plain
    | byte b => rfl
    | special k => rfl
  rw [delivered, deliver, mode_eq]
  dsimp only
  rw [reply_eq, if_pos done]

namespace Console

/-- The key makes the open surface say that it is done, and this is its reply. -/
structure Routing.Exits [ConfigSurface σ cols rows] (r : Routing ℓ κ β σ cols rows)
    (reply : ConfigReply σ cols rows) : Prop where
  mode_eq : r.state.1.router.mode = .config
  plain : r.token.isAlt = false
  reply_eq : ConfigSurface.key r.state.2.surface r.token r.state.1.router.draft
    r.state.1.terminal = reply
  done : reply.done = true

/-- What is left of the terminal comes from the reply. -/
theorem Routing.Exits.terminal_after [SerialLink ℓ] [Bell β] [ConfigSurface σ cols rows]
    {r : Routing ℓ κ β σ cols rows} {reply : ConfigReply σ cols rows} (h : r.Exits reply) :
    r.after.1.terminal =
      (reply.terminal.apply reply.draft).reset.drawStatus .online reply.draft.serial := by
  obtain ⟨⟨c, d⟩, token⟩ := r
  have routed := Router.dispatch_of_done
    (e := (⟨c.terminal, c.tx, d.bell, d.surface⟩ : Endpoints β σ cols rows txSlots))
    h.mode_eq h.plain h.reply_eq h.done c.settings
  rw [Routing.after, routeKey]
  dsimp only
  rw [routed]
  rfl

end Console

/-! ## The beginning of an edit -/

namespace ConfigPage

variable {t u : Terminal cols rows}

theorem samePage_writeLines (h : t.SamePage u) (row col : Nat) (lines : List String) :
    (writeLines t row col lines).SamePage (writeLines u row col lines) := by
  induction lines generalizing t u row with
  | nil => exact h
  | cons line rest ih => exact ih (h.writeText row col (Text.encode line)) (row + 1)

/-- **The built-in page draws over whatever was there.** -/
theorem samePage_draw (status : t.screen.hasStatus = u.screen.hasStatus)
    (visible : t.cursorVisible = u.cursorVisible) (colors : t.colors = u.colors)
    (settings : Settings) : (draw settings t).SamePage (draw settings u) := by
  have cleared := Terminal.samePage_clearWith status visible colors attrs
  exact samePage_writeLines (cleared.writeText 0 0 (Text.encode title)) _ _ _

end ConfigPage

namespace Console

/-- Opening the surface draws it, and the status line over it. -/
theorem terminal_routeKey_config [SerialLink ℓ] [Bell β] [ConfigSurface σ cols rows]
    (s : Console cols rows × Devices ℓ κ β σ) :
    (routeKey s (.alt .config)).1.terminal =
      (ConfigSurface.enter s.2.surface s.1.settings s.1.terminal).2.drawStatus .config
        s.1.settings.serial := rfl

/-- Two coherent consoles with the same settings open the built-in page alike. -/
theorem Coherent.screen_routeKey_config {ℓ' κ' β' : Type} [SerialLink ℓ] [Bell β]
    [SerialLink ℓ'] [Bell β'] {s : Console cols rows × Devices ℓ κ β ConfigPage}
    {s' : Console cols rows × Devices ℓ' κ' β' ConfigPage} (h : s.1.Coherent)
    (h' : s'.1.Coherent) (settings : s.1.settings = s'.1.settings)
    (visible : s.1.terminal.cursorVisible = s'.1.terminal.cursorVisible) :
    (Console.routeKey s (.alt .config)).1.terminal.screen =
      (Console.routeKey s' (.alt .config)).1.terminal.screen := by
  have setup : s.1.terminal.setup = s'.1.terminal.setup := by
    rw [h.setup_eq, h'.setup_eq, settings]
  have status : s.1.terminal.screen.hasStatus = s'.1.terminal.screen.hasStatus :=
    congrArg Terminal.Setup.statusLine setup
  have colors : s.1.terminal.colors = s'.1.terminal.colors :=
    congrArg Terminal.Setup.colors setup
  have drawn := ConfigPage.samePage_draw status visible colors s.1.settings
  rw [terminal_routeKey_config, terminal_routeKey_config, ← settings]
  exact drawn.screen_writeStatus _ _

/-! ## Both -/

section Both

variable {ℓ' κ' β' : Type} [SerialLink ℓ] [KeyboardHost κ] [Bell β]
variable [SerialLink ℓ'] [KeyboardHost κ'] [Bell β']

variable (cols rows) in
/-- **What is shown when an edit ends or begins does not depend on what came before.**

When two consoles, with any surfaces and in any state, are told by the surface that an edit is
over and that the settings are the same, and the cursor is shown in both or in neither, then
both have the same terminal afterwards, down to parser, saved position and marker.

When Alt+C opens the built-in page in two runs, with the same settings in effect and the
cursor shown in both or in neither, then both display the same screen. -/
theorem edits_begin_and_end_alike :
    (∀ (σ σ' : Type) [ConfigSurface σ cols rows] [ConfigSurface σ' cols rows]
        (r : Routing ℓ κ β σ cols rows) (r' : Routing ℓ' κ' β' σ' cols rows)
        (reply : ConfigReply σ cols rows) (reply' : ConfigReply σ' cols rows),
      r.Exits reply → r'.Exits reply' → reply.draft = reply'.draft →
      reply.terminal.cursorVisible = reply'.terminal.cursorVisible →
      let t := r.after.1.terminal
      t = r'.after.1.terminal ∧ t.cursor = .home ∧ t.saved = .home ∧ t.parser = .ground ∧
        t.attrs = reply.draft.colors.text ∧ t.colors = reply.draft.colors ∧
        t.policy = reply.draft.policy) ∧
    ∀ (settings settings' : Settings) (layout layout' : Layout) (d : Devices ℓ κ β ConfigPage)
        (d' : Devices ℓ' κ' β' ConfigPage) (stimuli stimuli' : List Stimulus),
      ∀ r ∈ routings (started cols rows settings layout d) stimuli,
      ∀ r' ∈ routings (started cols rows settings' layout' d') stimuli',
      r.token = .alt .config → r'.token = .alt .config →
      r.state.1.settings = r'.state.1.settings →
      r.state.1.terminal.cursorVisible = r'.state.1.terminal.cursorVisible →
      r.after.1.terminal.screen = r'.after.1.terminal.screen := by
  refine ⟨?_, ?_⟩
  · intro σ σ' _ _ r r' reply reply' exits exits' draft visible t
    have ended : t = _ := exits.terminal_after
    have same : t = r'.after.1.terminal := by
      rw [ended, exits'.terminal_after, ← draft]
      exact Terminal.applied_eq visible reply.draft _ _
    refine ⟨same, ?_⟩
    rw [ended]
    exact ⟨rfl, rfl, rfl, rfl, rfl, rfl⟩
  · intro settings settings' layout layout' d d' stimuli stimuli' r member r' member' opens opens'
      same visible
    have surface := ConfigPage.drawsOnly cols rows
    have coherent : r.state.1.Coherent :=
      (coherent_start cols rows settings layout d.bell).routings surface stimuli r member
    have coherent' : r'.state.1.Coherent :=
      (coherent_start cols rows settings' layout' d'.bell).routings surface stimuli' r' member'
    rw [Routing.after, Routing.after, opens, opens']
    exact coherent.screen_routeKey_config coherent' same visible

end Both

/-- One console has received text, other colors and half an escape sequence when its baud rate
is changed and escape ends the edit, the other one nothing. With the built-in page, one of them
has a full page when the operator opens it, on a grid where the page runs into the status row. -/
theorem edits_begin_and_end_alike_after_host_text :
    let edited : Devices OpenLink KeyScript Bell.Silent BaudEditor :=
      ⟨⟨⟩, ⟨[.ofKeys ⟨0x04⟩ [0x06], .ofKeys {} [0x05]]⟩, ⟨⟩, ⟨⟩⟩
    let shown : Devices OpenLink KeyScript Bell.Silent ConfigPage :=
      ⟨⟨⟩, ⟨[.ofKeys ⟨0x04⟩ [0x06]]⟩, ⟨⟩, ⟨⟩⟩
    let host : List Stimulus := [.receive 0x41, .receive 0x0A, .receive 0x42, .receive 0x1B,
      .receive 0x5B, .receive 0x37, .receive 0x6D, .receive 0x0A, .receive 0x1B, .receive 0x5B]
    let r : Routing OpenLink KeyScript Bell.Silent BaudEditor 4 3 :=
      ⟨run (started 4 3 {} .us edited) (host ++ [.poll 0, .poll 10]), .byte Ascii.esc⟩
    let r' : Routing OpenLink KeyScript Bell.Silent BaudEditor 4 3 :=
      ⟨run (started 4 3 {} .us edited) [.poll 0, .poll 10], .byte Ascii.esc⟩
    let s := started 4 3 {} .us shown
    (r.state.1.terminal.inSequence = true ∧ r'.state.1.terminal.inSequence = false) ∧
      r.after.1.terminal = r'.after.1.terminal ∧
      ((routings s (host ++ [.poll 0])).map Routing.token = [.alt .config] ∧
        (routings s [.poll 0]).map Routing.token = [.alt .config]) ∧
      ∀ m ∈ routings s (host ++ [.poll 0]), ∀ m' ∈ routings s [.poll 0],
        m.after.1.terminal.screen = m'.after.1.terminal.screen := by
  intro edited shown host r r' s
  have half : r.state.1.terminal.inSequence = true ∧ r'.state.1.terminal.inSequence = false := by
    decide +kernel
  have exits : r.Exits (ConfigSurface.key r.state.2.surface r.token r.state.1.router.draft
      r.state.1.terminal) := ⟨by decide +kernel, rfl, rfl, by decide +kernel⟩
  have exits' : r'.Exits (ConfigSurface.key r'.state.2.surface r'.token r'.state.1.router.draft
      r'.state.1.terminal) := ⟨by decide +kernel, rfl, rfl, by decide +kernel⟩
  have ended := (edits_begin_and_end_alike 4 3).1 _ _ r r' _ _ exits exits' (by decide +kernel)
    (by decide +kernel)
  have keys : (routings s (host ++ [.poll 0])).map Routing.token = [.alt .config] ∧
      (routings s [.poll 0]).map Routing.token = [.alt .config] := by
    decide +kernel
  have inEffect : ∀ m ∈ routings s (host ++ [.poll 0]), ∀ m' ∈ routings s [.poll 0],
      (m.token = .alt .config ∧ m'.token = .alt .config) ∧
        m.state.1.settings = m'.state.1.settings ∧
        m.state.1.terminal.cursorVisible = m'.state.1.terminal.cursorVisible := by
    decide +kernel
  have begins := (edits_begin_and_end_alike 4 3).2 {} {} .us .us shown shown (host ++ [.poll 0])
    [.poll 0]
  -- from here on it does not matter where the run began
  generalize hbegun : started 4 3 {} .us shown = begun at begins
  have same : s = begun := hbegun
  rw [same] at keys inEffect ⊢
  refine ⟨half, ended.1, keys, ?_⟩
  intro m member m' member'
  obtain ⟨⟨opens, opens'⟩, settings, visible⟩ := inEffect m member m' member'
  exact begins m member m' member' opens opens' settings visible

end Console

end SerialTerminal
