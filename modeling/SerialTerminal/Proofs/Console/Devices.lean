/-
What a console can know of its devices.

A console sees a device only through the answers that it gets. So when devices are
replaced by others that give the same answers, a run stays the same, and the new devices
end where the old ones have ended. The replacement is a map of states that every call goes
through, one for links, one for bells and one for configuration surfaces. (Keyboard
hosts are replaced apart from these, where they are watched.)

**Replacing the devices and then running is the same as running and then replacing them**
(`Console.run_map`). This is shown for each part of a turn, in the order of the turn. It is
used for instruments, which add to a device something that only the reader of a proof is
to see; the map takes them off again.
-/
import SerialTerminal.Proofs.Console.Run

set_option autoImplicit false

namespace SerialTerminal

variable {ℓ ℓ' κ β β' σ σ' : Type} {cols rows slots : Nat}

/-! ## Maps between devices -/

/-- A map between links that answer alike. -/
structure SerialLink.IsHom [SerialLink ℓ] [SerialLink ℓ'] (f : ℓ → ℓ') : Prop where
  ready : ∀ link, SerialLink.ready (f link) =
    (f (SerialLink.ready link).1, (SerialLink.ready link).2)
  send : ∀ link b, SerialLink.send (f link) b =
    (f (SerialLink.send link b).1, (SerialLink.send link b).2)
  reconfigure : ∀ link config, SerialLink.reconfigure (f link) config =
    (f (SerialLink.reconfigure link config).1, (SerialLink.reconfigure link config).2)

/-- A map between bells. They have no answers. -/
structure Bell.IsHom [Bell β] [Bell β'] (g : β → β') : Prop where
  ring : ∀ bell, Bell.ring (g bell) = g (Bell.ring bell)
  tick : ∀ bell now, Bell.tick (g bell) now = g (Bell.tick bell now)

/-- A map between surfaces that draw and answer alike. -/
structure ConfigSurface.IsHom (cols rows : Nat) [ConfigSurface σ cols rows]
    [ConfigSurface σ' cols rows] (h : σ → σ') : Prop where
  enter : ∀ surface settings (t : Terminal cols rows),
    ConfigSurface.enter (h surface) settings t =
      (h (ConfigSurface.enter surface settings t).1, (ConfigSurface.enter surface settings t).2)
  key : ∀ surface token draft (t : Terminal cols rows),
    ConfigSurface.key (h surface) token draft t =
      let reply := ConfigSurface.key surface token draft t
      ⟨h reply.surface, reply.draft, reply.terminal, reply.done⟩

/-- Maps for all three. -/
structure Devices.IsHom (cols rows : Nat) [SerialLink ℓ] [SerialLink ℓ'] [Bell β] [Bell β']
    [ConfigSurface σ cols rows] [ConfigSurface σ' cols rows] (f : ℓ → ℓ') (g : β → β')
    (h : σ → σ') : Prop where
  link : SerialLink.IsHom f
  bell : Bell.IsHom g
  surface : ConfigSurface.IsHom cols rows h

theorem SerialLink.isHom_id [SerialLink ℓ] : SerialLink.IsHom (id : ℓ → ℓ) :=
  ⟨fun _ => rfl, fun _ _ => rfl, fun _ _ => rfl⟩

theorem Bell.isHom_id [Bell β] : Bell.IsHom (id : β → β) :=
  ⟨fun _ => rfl, fun _ _ => rfl⟩

theorem ConfigSurface.isHom_id [ConfigSurface σ cols rows] :
    ConfigSurface.IsHom cols rows (id : σ → σ) :=
  ⟨fun _ _ _ => rfl, fun _ _ _ _ => rfl⟩

def Endpoints.map (g : β → β') (h : σ → σ') (e : Endpoints β σ cols rows slots) :
    Endpoints β' σ' cols rows slots where
  terminal := e.terminal
  tx := e.tx
  bell := g e.bell
  surface := h e.surface

/-- The same devices with all but the keyboard host replaced. -/
def Devices.map (f : ℓ → ℓ') (g : β → β') (h : σ → σ') (d : Devices ℓ κ β σ) :
    Devices ℓ' κ β' σ' where
  link := f d.link
  keyboard := d.keyboard
  bell := g d.bell
  surface := h d.surface

variable {f : ℓ → ℓ'} {g : β → β'} {h : σ → σ'}

/-! ## Interpreter and router -/

section Parts

variable [Bell β] [Bell β']

theorem Terminal.print_map (bell_hom : Bell.IsHom g) (t : Terminal cols rows)
    (bytes : List UInt8) (bell : β) :
    t.print bytes (g bell) = ((t.print bytes bell).1, g (t.print bytes bell).2) := by
  induction bytes generalizing t bell with
  | nil => rfl
  | cons b rest ih =>
    have first : t.handle b (g bell) = ((t.handle b bell).1, g (t.handle b bell).2) := by
      rw [handle, handle]
      by_cases rings : t.rings b = true
      · rw [if_pos rings, if_pos rings, bell_hom.ring]
      · rw [if_neg rings, if_neg rings]
    rw [print, first, ih]
    rfl

variable [ConfigSurface σ cols rows] [ConfigSurface σ' cols rows]

theorem Router.deliver_map (bell_hom : Bell.IsHom g)
    (surface_hom : ConfigSurface.IsHom cols rows h) (r : Router) (token : KeyToken)
    (e : Endpoints β σ cols rows slots) :
    r.deliver token (e.map g h) =
      let out := r.deliver token e
      (out.1, out.2.1.map g h, out.2.2) := by
  obtain ⟨mode, draft⟩ := r
  cases mode with
  | online => rfl
  | loopback =>
    rw [deliver]
    dsimp only [Endpoints.map]
    rw [Terminal.print_map bell_hom]
    rfl
  | config =>
    rw [deliver, deliver]
    dsimp only [Endpoints.map]
    rw [surface_hom.key]
    by_cases done : (ConfigSurface.key e.surface token draft e.terminal).done = true
    · rw [if_pos done, if_pos done]
    · rw [if_neg done, if_neg done]

theorem Router.dispatch_map (bell_hom : Bell.IsHom g)
    (surface_hom : ConfigSurface.IsHom cols rows h) (r : Router) (token : KeyToken)
    (settings : Settings) (e : Endpoints β σ cols rows slots) :
    r.dispatch token settings (e.map g h) =
      let out := r.dispatch token settings e
      (out.1, out.2.1.map g h, out.2.2) := by
  cases token with
  | alt a =>
    cases a with
    | config =>
      have opened := surface_hom.enter e.surface settings e.terminal
      dsimp only [dispatch, command, Endpoints.map]
      rw [opened]
    | toggleLocal =>
      obtain ⟨mode, draft⟩ := r
      cases mode <;> rfl
    | record | transmit => rfl
  | byte b => exact r.deliver_map bell_hom surface_hom (.byte b) e
  | special k => exact r.deliver_map bell_hom surface_hom (.special k) e

end Parts

/-! ## The parts of a turn -/

namespace Console

theorem pollKeyboard_map [KeyboardHost κ] (c : Console cols rows) (now : Instant)
    (d : Devices ℓ κ β σ) :
    c.pollKeyboard now (d.map f g h) =
      ((c.pollKeyboard now d).1, (c.pollKeyboard now d).2.map f g h) := by
  obtain ⟨keyboard, keys, attached, same⟩ := c.exists_pollKeyboard now d.keyboard
  rw [same d rfl, same (d.map f g h) rfl]
  rfl

section Turn

variable [Bell β] [Bell β']

theorem interpretReceived_map (bell_hom : Bell.IsHom g) (c : Console cols rows)
    (d : Devices ℓ κ β σ) :
    c.interpretReceived (d.map f g h) =
      ((c.interpretReceived d).1, (c.interpretReceived d).2.map f g h) := by
  unfold interpretReceived
  dsimp only [Devices.map]
  rw [Terminal.print_map bell_hom]

/-- Neither link nor surface are asked before the keys are routed. -/
theorem beforeRouting_map [KeyboardHost κ] (bell_hom : Bell.IsHom g) (c : Console cols rows)
    (now : Instant) (d : Devices ℓ κ β σ) :
    c.beforeRouting now (d.map f g h) =
      ((c.beforeRouting now d).1, (c.beforeRouting now d).2.map f g h) := by
  unfold beforeRouting
  rw [interpretReceived_map bell_hom]
  exact pollKeyboard_map _ now _

variable [SerialLink ℓ] [SerialLink ℓ']

omit [Bell β] [Bell β'] in
theorem transmit_map (link_hom : SerialLink.IsHom f) (n : Nat) (tx : Ring UInt8 slots)
    (link : ℓ) : transmit n tx (f link) = ((transmit n tx link).1, f (transmit n tx link).2) := by
  induction n generalizing tx link with
  | zero => rfl
  | succ n ih =>
    rw [transmit_succ, transmit_succ]
    cases tx.peek? with
    | none => rfl
    | some b =>
      dsimp only
      rw [link_hom.ready]
      by_cases hready : (SerialLink.ready link).2 = .ready
      · rw [if_pos hready, if_pos hready, link_hom.send]
        by_cases htaken : (SerialLink.send (SerialLink.ready link).1 b).2 = .taken
        · rw [if_pos htaken, if_pos htaken]
          exact ih tx.pop.1 _
        · rw [if_neg htaken, if_neg htaken]
      · rw [if_neg hready, if_neg hready]

variable [ConfigSurface σ cols rows] [ConfigSurface σ' cols rows]

theorem routeKey_map (hom : Devices.IsHom cols rows f g h)
    (s : Console cols rows × Devices ℓ κ β σ) (token : KeyToken) :
    routeKey (s.1, s.2.map f g h) token =
      ((routeKey s token).1, (routeKey s token).2.map f g h) := by
  obtain ⟨c, d⟩ := s
  have mapped := c.router.dispatch_map hom.bell hom.surface token c.settings
    (⟨c.terminal, c.tx, d.bell, d.surface⟩ : Endpoints β σ cols rows txSlots)
  unfold routeKey
  dsimp only [Devices.map, Endpoints.map] at mapped ⊢
  rw [mapped]
  rcases (c.router.dispatch token c.settings
    (⟨c.terminal, c.tx, d.bell, d.surface⟩ : Endpoints β σ cols rows txSlots)) with
    ⟨router, e, event⟩
  rcases event with _ | ⟨mode⟩ | ⟨settings⟩
  · rfl
  · rfl
  -- settings that take effect are the only thing that reaches the link
  · dsimp only [apply]
    by_cases differ : settings.serial ≠ c.settings.serial
    · rw [if_pos differ, if_pos differ, hom.link.reconfigure]
    · rw [if_neg differ, if_neg differ]

theorem routeAll_map (hom : Devices.IsHom cols rows f g h)
    (s : Console cols rows × Devices ℓ κ β σ) (tokens : List KeyToken) :
    routeAll (s.1, s.2.map f g h) tokens =
      ((routeAll s tokens).1, (routeAll s tokens).2.map f g h) := by
  induction tokens generalizing s with
  | nil => rfl
  | cons token rest ih =>
    rw [routeAll_cons, routeAll_cons, routeKey_map hom, ih]

variable [KeyboardHost κ]

theorem beforeTransmit_map (hom : Devices.IsHom cols rows f g h) (c : Console cols rows)
    (now : Instant) (d : Devices ℓ κ β σ) :
    c.beforeTransmit now (d.map f g h) =
      ((c.beforeTransmit now d).1, (c.beforeTransmit now d).2.map f g h) := by
  rw [beforeTransmit, beforeRouting_map hom.bell]
  exact routeAll_map hom ((c.beforeRouting now d).1.takeKeys.1, (c.beforeRouting now d).2) _

theorem stimulate_map (hom : Devices.IsHom cols rows f g h)
    (s : Console cols rows × Devices ℓ κ β σ) (e : Stimulus) :
    stimulate (s.1, s.2.map f g h) e =
      ((stimulate s e).1, (stimulate s e).2.map f g h) := by
  cases e with
  | receive b => rfl
  | poll now =>
    rw [stimulate, stimulate, poll_eq, poll_eq, beforeTransmit_map hom]
    dsimp only [transmitQueued, Devices.map]
    rw [transmit_map hom.link, hom.bell.tick]

/-- **A console cannot tell devices apart that answer alike.** -/
theorem run_map (hom : Devices.IsHom cols rows f g h)
    (s : Console cols rows × Devices ℓ κ β σ) (stimuli : List Stimulus) :
    run (s.1, s.2.map f g h) stimuli = ((run s stimuli).1, (run s stimuli).2.map f g h) := by
  induction stimuli generalizing s with
  | nil => rfl
  | cons e rest ih =>
    rw [run_cons, run_cons, stimulate_map hom, ih]

end Turn

end Console

end SerialTerminal
