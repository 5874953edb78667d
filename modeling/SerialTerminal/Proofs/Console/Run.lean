/-
Runs of the console.

From outside two things happen to a console: a byte arrives between two turns, and
the loop makes a turn. A run is any list of these (`Console.run`). Link, keyboard, bell
and surface answer as they like.

A turn has five parts, and a proof about it goes through them in this order. So two
states on the way have names, the one in which the keys are routed and the one in which
the transmission begins (`beforeRouting`, `beforeTransmit`), and the parts that only work
with a device or two are said to leave the rest alone.
-/
import SerialTerminal.Console

set_option autoImplicit false

namespace SerialTerminal

/-! ## Devices for a written run -/

/-- A link that takes every byte and every setting. -/
structure OpenLink where
  deriving DecidableEq, Inhabited

instance : SerialLink OpenLink where
  ready link := (link, .ready)
  send link _ := (link, .taken)
  reconfigure link _ := (link, true)

/-- A link that takes every byte and keeps its line settings. -/
structure FixedLink where
  deriving DecidableEq, Inhabited

instance : SerialLink FixedLink where
  ready link := (link, .ready)
  send link _ := (link, .taken)
  reconfigure link _ := (link, false)

/-- A keyboard whose reports are written down. -/
structure KeyScript where
  /-- Oldest first. -/
  reports : List KeyReport
  deriving DecidableEq

instance : KeyboardHost KeyScript where
  nextReport k := (⟨k.reports.tail⟩, k.reports.head?)
  setLeds k _ := k

/-- A surface without a picture: the letter B changes the baud rate, and escape ends the
edit. -/
structure BaudEditor where
  deriving DecidableEq, Inhabited

instance {cols rows : Nat} : ConfigSurface BaudEditor cols rows where
  enter editor _ t := (editor, t)
  key editor token draft t :=
    match token with
    | .byte 0x62 =>
      let serial := { draft.serial with baud := draft.serial.baud.next }
      ⟨editor, { draft with serial }, t, false⟩
    | token => ⟨editor, draft, t, token = .byte Ascii.esc⟩

namespace Console

variable {ℓ κ β σ : Type} {cols rows : Nat}

/-! ## Runs -/

/-- What happens to a console from outside. -/
inductive Stimulus where
  /-- A byte arrives on the line. -/
  | receive (b : UInt8)
  /-- The loop makes a turn. -/
  | poll (now : Instant)
  deriving DecidableEq

/-- A console that has just been started, and its devices. -/
def started [Bell β] (cols rows : Nat) (settings : Settings) (layout : Layout)
    (d : Devices ℓ κ β σ) : Console cols rows × Devices ℓ κ β σ :=
  let begun := start cols rows settings layout d.bell
  (begun.1, { d with bell := begun.2 })

section Routing

variable [SerialLink ℓ] [Bell β] [ConfigSurface σ cols rows]

/-- Routes tokens one after the other. -/
def routeAll (s : Console cols rows × Devices ℓ κ β σ) (tokens : List KeyToken) :
    Console cols rows × Devices ℓ κ β σ :=
  tokens.foldl routeKey s

@[simp] theorem routeAll_nil (s : Console cols rows × Devices ℓ κ β σ) :
    routeAll s [] = s := rfl

@[simp] theorem routeAll_cons (s : Console cols rows × Devices ℓ κ β σ) (token : KeyToken)
    (tokens : List KeyToken) :
    routeAll s (token :: tokens) = routeAll (routeKey s token) tokens := rfl

/-- The tokens that wait, and the console without them. -/
def takeKeys (c : Console cols rows) : Console cols rows × List KeyToken :=
  let drained := c.keys.drain c.keys.size
  ({ c with keys := drained.1 }, drained.2)

theorem routeKeys_eq (c : Console cols rows) (d : Devices ℓ κ β σ) :
    c.routeKeys d = routeAll (c.takeKeys.1, d) c.takeKeys.2 := rfl

end Routing

/-- The state in which a turn begins to route the queued keys. -/
def beforeRouting [KeyboardHost κ] [Bell β] (c : Console cols rows) (now : Instant)
    (d : Devices ℓ κ β σ) : Console cols rows × Devices ℓ κ β σ :=
  let received := c.interpretReceived d
  received.1.pollKeyboard now received.2

section Runs

variable [SerialLink ℓ] [KeyboardHost κ] [Bell β] [ConfigSurface σ cols rows]

/-- The state in which a turn begins to transmit. -/
def beforeTransmit (c : Console cols rows) (now : Instant) (d : Devices ℓ κ β σ) :
    Console cols rows × Devices ℓ κ β σ :=
  let s := c.beforeRouting now d
  s.1.routeKeys s.2

theorem poll_eq (c : Console cols rows) (now : Instant) (d : Devices ℓ κ β σ) :
    c.poll now d =
      let sent := (c.beforeTransmit now d).1.transmitQueued (c.beforeTransmit now d).2
      (sent.1, { sent.2 with bell := Bell.tick sent.2.bell now }) := rfl

/-- One stimulus. -/
def stimulate (s : Console cols rows × Devices ℓ κ β σ) :
    Stimulus → Console cols rows × Devices ℓ κ β σ
  | .receive b => ((s.1.receive b).1, s.2)
  | .poll now => s.1.poll now s.2

/-- Stimuli one after the other. -/
def run (s : Console cols rows × Devices ℓ κ β σ) (stimuli : List Stimulus) :
    Console cols rows × Devices ℓ κ β σ :=
  stimuli.foldl stimulate s

@[simp] theorem run_nil (s : Console cols rows × Devices ℓ κ β σ) : run s [] = s := rfl

@[simp] theorem run_cons (s : Console cols rows × Devices ℓ κ β σ) (e : Stimulus)
    (stimuli : List Stimulus) : run s (e :: stimuli) = run (stimulate s e) stimuli := rfl

end Runs

/-! ## The keys of a run -/

/-- A key that is routed, and the state which it is routed in. -/
structure Routing (ℓ κ β σ : Type) (cols rows : Nat) where
  state : Console cols rows × Devices ℓ κ β σ
  token : KeyToken

section Routings

variable [SerialLink ℓ] [Bell β] [ConfigSurface σ cols rows]

/-- The state that a key leaves behind. -/
def Routing.after (r : Routing ℓ κ β σ cols rows) : Console cols rows × Devices ℓ κ β σ :=
  routeKey r.state r.token

def routingsOf (s : Console cols rows × Devices ℓ κ β σ) :
    List KeyToken → List (Routing ℓ κ β σ cols rows)
  | [] => []
  | token :: rest => ⟨s, token⟩ :: routingsOf (routeKey s token) rest

theorem token_routingsOf (s : Console cols rows × Devices ℓ κ β σ) (tokens : List KeyToken) :
    (routingsOf s tokens).map Routing.token = tokens := by
  induction tokens generalizing s with
  | nil => rfl
  | cons token rest ih => rw [routingsOf, List.map_cons, ih]

variable [KeyboardHost κ]

/-- A stimulus: only a turn of the loop routes keys. -/
def stimulusRoutings (s : Console cols rows × Devices ℓ κ β σ) :
    Stimulus → List (Routing ℓ κ β σ cols rows)
  | .receive _ => []
  | .poll now =>
    let before := s.1.beforeRouting now s.2
    routingsOf (before.1.takeKeys.1, before.2) before.1.takeKeys.2

/-- Every key of a run with the state that it met, oldest first. -/
def routings (s : Console cols rows × Devices ℓ κ β σ) :
    List Stimulus → List (Routing ℓ κ β σ cols rows)
  | [] => []
  | e :: rest => stimulusRoutings s e ++ routings (stimulate s e) rest

end Routings

/-! ## One byte of a transmission -/

/-- The oldest byte goes out, and the rest after it, when the link is ready and
takes it; otherwise the attempt ends with the ring as it is. -/
theorem transmit_succ [SerialLink ℓ] {slots : Nat} (n : Nat) (tx : Ring UInt8 slots) (link : ℓ) :
    transmit (n + 1) tx link =
      match tx.peek? with
      | none => (tx, link)
      | some b =>
        let asked := SerialLink.ready link
        if asked.2 = .ready then
          let offered := SerialLink.send asked.1 b
          if offered.2 = .taken then transmit n tx.pop.1 offered.1 else (tx, offered.1)
        else (tx, asked.1) := by
  rw [transmit]
  cases tx.peek? with
  | none => rfl
  | some b =>
    rcases SerialLink.ready link with ⟨asked, readiness⟩
    cases readiness with
    | ready =>
      rcases hsend : SerialLink.send asked b with ⟨offered, delivery⟩
      cases delivery <;> simp [hsend]
    | busy => rfl
    | failed => rfl

/-! ## What the parts of a turn leave alone -/

section Frames

/-- **The keyboard part of a turn works with the keyboard alone.** Whatever else is
attached, it comes to the same, and only the decoder and the key queue change. -/
theorem exists_pollKeyboard [KeyboardHost κ] (c : Console cols rows) (now : Instant)
    (attached : κ) :
    ∃ keyboard keys attached', ∀ {ℓ β σ : Type} (d : Devices ℓ κ β σ), d.keyboard = attached →
      c.pollKeyboard now d = ({ c with keyboard, keys }, { d with keyboard := attached' }) := by
  have reported : ∃ keyboard keys attached', ∀ {ℓ β σ : Type} (d : Devices ℓ κ β σ),
      d.keyboard = attached →
        c.takeReport now d = ({ c with keyboard, keys }, { d with keyboard := attached' }) := by
    cases hasked : (KeyboardHost.nextReport attached).2 with
    | none =>
      refine ⟨c.keyboard, c.keys, (KeyboardHost.nextReport attached).1, ?_⟩
      rintro _ _ _ d rfl
      rw [takeReport, hasked]
    | some report =>
      refine ⟨(c.keyboard.report report now).1, c.keys.pushAll (c.keyboard.report report now).2,
        (KeyboardHost.nextReport attached).1, ?_⟩
      rintro _ _ _ d rfl
      rw [takeReport, hasked]
  have lit : ∀ (c : Console cols rows) (attached : κ), ∃ keyboard attached',
      ∀ {ℓ β σ : Type} (d : Devices ℓ κ β σ), d.keyboard = attached →
        c.updateLeds d = ({ c with keyboard }, { d with keyboard := attached' }) := by
    intro c attached
    cases htaken : c.keyboard.takeLeds.2 with
    | none =>
      refine ⟨c.keyboard.takeLeds.1, attached, ?_⟩
      rintro _ _ _ d rfl
      rw [updateLeds, htaken]
    | some leds =>
      refine ⟨c.keyboard.takeLeds.1, KeyboardHost.setLeds attached leds, ?_⟩
      rintro _ _ _ d rfl
      rw [updateLeds, htaken]
  obtain ⟨keyboard, keys, asked, hreported⟩ := reported
  obtain ⟨keyboard', told, hlit⟩ := lit (({ c with keyboard, keys } : Console cols rows).repeatKeys
    now) asked
  refine ⟨keyboard', (({ c with keyboard, keys } : Console cols rows).repeatKeys now).keys,
    told, ?_⟩
  intro _ _ _ d hd
  rw [pollKeyboard, hreported d hd, hlit _ rfl]
  rfl

theorem exists_pollKeyboard_eq [KeyboardHost κ] (c : Console cols rows) (now : Instant)
    (d : Devices ℓ κ β σ) :
    ∃ keyboard keys, (c.pollKeyboard now d).1 = { c with keyboard, keys } := by
  obtain ⟨keyboard, keys, attached, same⟩ := c.exists_pollKeyboard now d.keyboard
  exact ⟨keyboard, keys, congrArg Prod.fst (same d rfl)⟩

theorem tx_pollKeyboard [KeyboardHost κ] (c : Console cols rows) (now : Instant)
    (d : Devices ℓ κ β σ) : (c.pollKeyboard now d).1.tx = c.tx := by
  obtain ⟨keyboard, keys, same⟩ := c.exists_pollKeyboard_eq now d
  rw [same]

/-- Neither received bytes nor the keyboard reach the transmit ring before the keys
are routed. -/
theorem tx_beforeRouting [KeyboardHost κ] [Bell β] (c : Console cols rows) (now : Instant)
    (d : Devices ℓ κ β σ) : (c.beforeRouting now d).1.tx = c.tx := by
  rw [beforeRouting, tx_pollKeyboard]
  rfl

section Routed

variable [SerialLink ℓ] [Bell β] [ConfigSurface σ cols rows]

/-- **Routing a key leaves the decoder, its queue and the receive ring alone**, and the keyboard
host too. -/
theorem exists_routeKey (s : Console cols rows × Devices ℓ κ β σ) (token : KeyToken) :
    ∃ terminal tx router settings link bell surface,
      routeKey s token =
        ({ s.1 with terminal, tx, router, settings }, { s.2 with link, bell, surface }) := by
  obtain ⟨c, d⟩ := s
  rw [routeKey]
  rcases c.router.dispatch token c.settings
    (⟨c.terminal, c.tx, d.bell, d.surface⟩ : Endpoints β σ cols rows txSlots) with
    ⟨router, e, event⟩
  rcases event with _ | ⟨mode⟩ | ⟨settings⟩
  · exact ⟨_, _, _, _, _, _, _, rfl⟩
  · exact ⟨_, _, _, _, _, _, _, rfl⟩
  · exact ⟨_, _, _, _, _, _, _, rfl⟩

theorem exists_routeAll (s : Console cols rows × Devices ℓ κ β σ) (tokens : List KeyToken) :
    ∃ terminal tx router settings link bell surface,
      routeAll s tokens =
        ({ s.1 with terminal, tx, router, settings }, { s.2 with link, bell, surface }) := by
  induction tokens generalizing s with
  | nil => exact ⟨_, _, _, _, _, _, _, rfl⟩
  | cons token rest ih =>
    obtain ⟨terminal, tx, router, settings, link, bell, surface, first⟩ := exists_routeKey s token
    obtain ⟨terminal', tx', router', settings', link', bell', surface', later⟩ :=
      ih (routeKey s token)
    rw [routeAll_cons, later, first]
    exact ⟨_, _, _, _, _, _, _, rfl⟩

end Routed

end Frames

end Console

end SerialTerminal
