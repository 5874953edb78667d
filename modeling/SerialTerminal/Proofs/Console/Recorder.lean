/-
A link that writes down what is asked of it.

A link answers as it likes, so what the console asked of it cannot be read off the state of
the console. `Recorder` makes it visible: it passes every request on to the link that it
wraps and keeps a log of requests and answers. **A console cannot tell a recorder from the
link inside it** (`run_recording`), so what the log of a recorded run holds is what the same
run asks of the bare link.

Taking the recorder off is a map that all requests go through, and so is writing an earlier
log in front. The first says that a recorded run is the bare one, the second that what is
written down does not depend on what is in the log already (`recorded`). With both, the log
of a run is put together from the logs of its parts.
-/
import SerialTerminal.Proofs.Console.Devices

set_option autoImplicit false

namespace SerialTerminal

/-- A request made to a link, with its answer. -/
inductive LinkCall where
  | ready (answer : Readiness)
  | send (b : UInt8) (answer : Delivery)
  | reconfigure (config : SerialConfig) (done : Bool)
  deriving DecidableEq

/-- A link and what was asked of it so far. -/
structure Recorder (ℓ : Type) where
  device : ℓ
  /-- Oldest first. -/
  log : List LinkCall

instance {ℓ : Type} [SerialLink ℓ] : SerialLink (Recorder ℓ) where
  ready r :=
    let asked := SerialLink.ready r.device
    (⟨asked.1, r.log ++ [.ready asked.2]⟩, asked.2)
  send r b :=
    let offered := SerialLink.send r.device b
    (⟨offered.1, r.log ++ [.send b offered.2]⟩, offered.2)
  reconfigure r config :=
    let asked := SerialLink.reconfigure r.device config
    (⟨asked.1, r.log ++ [.reconfigure config asked.2]⟩, asked.2)

namespace Recorder

variable {ℓ : Type}

/-- A log in front of the one that there is. -/
def prepend (log : List LinkCall) (r : Recorder ℓ) : Recorder ℓ :=
  ⟨r.device, log ++ r.log⟩

theorem prepend_start (log : List LinkCall) (link : ℓ) :
    prepend log ⟨link, []⟩ = ⟨link, log⟩ := by
  rw [prepend, List.append_nil]

variable [SerialLink ℓ]

theorem isHom_device : SerialLink.IsHom (device : Recorder ℓ → ℓ) :=
  ⟨fun _ => rfl, fun _ _ => rfl, fun _ _ => rfl⟩

theorem isHom_prepend (log : List LinkCall) :
    SerialLink.IsHom (prepend log : Recorder ℓ → Recorder ℓ) := by
  have later : ∀ (link : ℓ) (old : List LinkCall) (request : LinkCall),
      (⟨link, (log ++ old) ++ [request]⟩ : Recorder ℓ) = prepend log ⟨link, old ++ [request]⟩ := by
    intro link old request
    rw [prepend, List.append_assoc]
  refine ⟨?_, ?_, ?_⟩
  · intro r
    exact Prod.ext (later _ r.log _) rfl
  · intro r b
    exact Prod.ext (later _ r.log _) rfl
  · intro r config
    exact Prod.ext (later _ r.log _) rfl

theorem ready_eq (link : ℓ) (log : List LinkCall) :
    SerialLink.ready (⟨link, log⟩ : Recorder ℓ) =
      (⟨(SerialLink.ready link).1, log ++ [.ready (SerialLink.ready link).2]⟩,
        (SerialLink.ready link).2) := rfl

theorem send_eq (link : ℓ) (log : List LinkCall) (b : UInt8) :
    SerialLink.send (⟨link, log⟩ : Recorder ℓ) b =
      (⟨(SerialLink.send link b).1, log ++ [.send b (SerialLink.send link b).2]⟩,
        (SerialLink.send link b).2) := rfl

end Recorder

/-- The same devices with a recorder put around the link. -/
def Devices.recording {ℓ κ β σ : Type} (d : Devices ℓ κ β σ) (log : List LinkCall) :
    Devices (Recorder ℓ) κ β σ where
  link := ⟨d.link, log⟩
  keyboard := d.keyboard
  bell := d.bell
  surface := d.surface

theorem Devices.recording_prepend {ℓ κ β σ : Type} (d : Devices ℓ κ β σ) (log : List LinkCall) :
    (d.recording []).map (Recorder.prepend log) id id = d.recording log := by
  rw [Devices.map, Devices.recording, Recorder.prepend_start]
  rfl

namespace Console

variable {ℓ κ β σ : Type} {cols rows : Nat}

/-- What a recorder is asked while a ring is transmitted. -/
def transmitCalls [SerialLink ℓ] {slots : Nat} (n : Nat) (tx : Ring UInt8 slots) (link : ℓ) :
    List LinkCall :=
  (transmit n tx (⟨link, []⟩ : Recorder ℓ)).2.log

theorem transmit_recording [SerialLink ℓ] {slots : Nat} (n : Nat) (tx : Ring UInt8 slots)
    (link : ℓ) (log : List LinkCall) :
    transmit n tx (⟨link, log⟩ : Recorder ℓ) =
      ((transmit n tx link).1, ⟨(transmit n tx link).2, log ++ transmitCalls n tx link⟩) := by
  have bare := transmit_map Recorder.isHom_device n tx (⟨link, []⟩ : Recorder ℓ)
  have more := transmit_map (Recorder.isHom_prepend log) n tx (⟨link, []⟩ : Recorder ℓ)
  rw [Recorder.prepend_start] at more
  dsimp only at bare
  rw [more, bare]
  rfl

/-- What is asked about the oldest byte, and after it. -/
theorem transmitCalls_succ [SerialLink ℓ] {slots : Nat} (n : Nat) (tx : Ring UInt8 slots)
    (link : ℓ) :
    transmitCalls (n + 1) tx link =
      match tx.peek? with
      | none => []
      | some b =>
        let asked := SerialLink.ready link
        .ready asked.2 ::
          if asked.2 = .ready then
            let offered := SerialLink.send asked.1 b
            .send b offered.2 ::
              if offered.2 = .taken then transmitCalls n tx.pop.1 offered.1 else []
          else [] := by
  rw [transmitCalls, transmit_succ]
  cases tx.peek? with
  | none => rfl
  | some b =>
    dsimp only [Recorder.ready_eq, Recorder.send_eq]
    by_cases hready : (SerialLink.ready link).2 = .ready
    · by_cases htaken : (SerialLink.send (SerialLink.ready link).1 b).2 = .taken
      · rw [if_pos hready, if_pos hready, if_pos htaken, if_pos htaken, transmit_recording]
        rfl
      · rw [if_pos hready, if_pos hready, if_neg htaken, if_neg htaken]
        rfl
    · rw [if_neg hready, if_neg hready]
      rfl

section Recording

variable [SerialLink ℓ] [Bell β] [ConfigSurface σ cols rows]

theorem isHom_unrecorded :
    Devices.IsHom cols rows (Recorder.device : Recorder ℓ → ℓ) (id : β → β) (id : σ → σ) :=
  ⟨Recorder.isHom_device, Bell.isHom_id, ConfigSurface.isHom_id⟩

theorem isHom_prepended (log : List LinkCall) :
    Devices.IsHom cols rows (Recorder.prepend log : Recorder ℓ → Recorder ℓ) (id : β → β)
      (id : σ → σ) :=
  ⟨Recorder.isHom_prepend log, Bell.isHom_id, ConfigSurface.isHom_id⟩

omit [SerialLink ℓ] [Bell β] [ConfigSurface σ cols rows] in
/-- What is done with an empty log is done with every other log. -/
theorem recorded {out : Console cols rows × Devices (Recorder ℓ) κ β σ}
    {bare : Console cols rows × Devices ℓ κ β σ}
    {full : Console cols rows × Devices (Recorder ℓ) κ β σ} {log : List LinkCall}
    (off : bare = (out.1, out.2.map Recorder.device id id))
    (on : full = (out.1, out.2.map (Recorder.prepend log) id id)) :
    full = (bare.1, bare.2.recording (log ++ out.2.link.log)) := by
  rw [off, on]
  rfl

/-- What a recorder is asked while a token is routed. -/
def routeCalls (s : Console cols rows × Devices ℓ κ β σ) (token : KeyToken) : List LinkCall :=
  (routeKey (s.1, s.2.recording []) token).2.link.log

/-- The settings that an event puts into effect. -/
def adopted? : Option RouterEvent → Option Settings
  | some (.configured settings) => some settings
  | _ => none

/-- The link is asked once for line settings that differ from those in effect. -/
theorem routeCalls_eq (c : Console cols rows) (d : Devices ℓ κ β σ) (token : KeyToken) :
    let out := c.router.dispatch token c.settings
      (⟨c.terminal, c.tx, d.bell, d.surface⟩ : Endpoints β σ cols rows txSlots)
    routeCalls (c, d) token =
      (adopted? out.2.2).elim [] fun settings =>
        if settings.serial ≠ c.settings.serial then
          [.reconfigure settings.serial (SerialLink.reconfigure d.link settings.serial).2]
        else [] := by
  unfold routeCalls routeKey
  dsimp only [Devices.recording]
  rcases (c.router.dispatch token c.settings
    (⟨c.terminal, c.tx, d.bell, d.surface⟩ : Endpoints β σ cols rows txSlots)) with
    ⟨router, e, event⟩
  rcases event with _ | ⟨mode⟩ | ⟨settings⟩
  · rfl
  · rfl
  · dsimp only [apply, adopted?, Option.elim]
    by_cases same : settings.serial ≠ c.settings.serial
    · rw [if_pos same, if_pos same]
      rfl
    · rw [if_neg same, if_neg same]

theorem routeKey_recording (s : Console cols rows × Devices ℓ κ β σ) (token : KeyToken)
    (log : List LinkCall) :
    routeKey (s.1, s.2.recording log) token =
      ((routeKey s token).1, (routeKey s token).2.recording (log ++ routeCalls s token)) := by
  have bare := routeKey_map isHom_unrecorded (s.1, s.2.recording []) token
  have more := routeKey_map (isHom_prepended log) (s.1, s.2.recording []) token
  rw [Devices.recording_prepend] at more
  exact recorded bare more

/-- What a recorder is asked while tokens are routed. -/
def routeAllCalls (s : Console cols rows × Devices ℓ κ β σ) (tokens : List KeyToken) :
    List LinkCall :=
  (routeAll (s.1, s.2.recording []) tokens).2.link.log

theorem routeAll_recording (s : Console cols rows × Devices ℓ κ β σ) (tokens : List KeyToken)
    (log : List LinkCall) :
    routeAll (s.1, s.2.recording log) tokens =
      ((routeAll s tokens).1,
        (routeAll s tokens).2.recording (log ++ routeAllCalls s tokens)) := by
  have bare := routeAll_map isHom_unrecorded (s.1, s.2.recording []) tokens
  have more := routeAll_map (isHom_prepended log) (s.1, s.2.recording []) tokens
  rw [Devices.recording_prepend] at more
  exact recorded bare more

theorem routeAllCalls_cons (s : Console cols rows × Devices ℓ κ β σ) (token : KeyToken)
    (tokens : List KeyToken) :
    routeAllCalls s (token :: tokens) =
      routeCalls s token ++ routeAllCalls (routeKey s token) tokens := by
  rw [routeAllCalls, routeAll_cons, routeKey_recording, routeAll_recording, List.nil_append]
  rfl

variable [KeyboardHost κ]

/-- What a recorder is asked by one stimulus. -/
def stimulusCalls (s : Console cols rows × Devices ℓ κ β σ) : Stimulus → List LinkCall
  | .receive _ => []
  | .poll now =>
    let before := s.1.beforeRouting now s.2
    let sending := s.1.beforeTransmit now s.2
    routeAllCalls (before.1.takeKeys.1, before.2) before.1.takeKeys.2 ++
      transmitCalls sending.1.tx.size sending.1.tx sending.2.link

theorem beforeTransmit_recording (c : Console cols rows) (now : Instant) (d : Devices ℓ κ β σ)
    (log : List LinkCall) :
    c.beforeTransmit now (d.recording log) =
      let before := c.beforeRouting now d
      ((c.beforeTransmit now d).1, (c.beforeTransmit now d).2.recording
        (log ++ routeAllCalls (before.1.takeKeys.1, before.2) before.1.takeKeys.2)) := by
  have around : ∀ d : Devices ℓ κ β σ, d.recording log = d.map (⟨·, log⟩) id id := fun _ => rfl
  rw [beforeTransmit, around, beforeRouting_map Bell.isHom_id, ← around]
  exact routeAll_recording ((c.beforeRouting now d).1.takeKeys.1, (c.beforeRouting now d).2) _ log

theorem stimulate_recording (s : Console cols rows × Devices ℓ κ β σ) (e : Stimulus)
    (log : List LinkCall) :
    stimulate (s.1, s.2.recording log) e =
      ((stimulate s e).1, (stimulate s e).2.recording (log ++ stimulusCalls s e)) := by
  cases e with
  | receive b =>
    rw [stimulusCalls, List.append_nil]
    rfl
  | poll now =>
    rw [stimulate, stimulate, poll_eq, poll_eq, beforeTransmit_recording]
    dsimp only [transmitQueued, Devices.recording, stimulusCalls]
    rw [transmit_recording, List.append_assoc]

/-- What a recorder is asked during a run. -/
def linkCalls (s : Console cols rows × Devices ℓ κ β σ) (stimuli : List Stimulus) :
    List LinkCall :=
  (run (s.1, s.2.recording []) stimuli).2.link.log

/-- **A console cannot tell a recorder from the link inside it.** -/
theorem run_recording (s : Console cols rows × Devices ℓ κ β σ) (stimuli : List Stimulus)
    (log : List LinkCall) :
    run (s.1, s.2.recording log) stimuli =
      ((run s stimuli).1, (run s stimuli).2.recording (log ++ linkCalls s stimuli)) := by
  have bare := run_map isHom_unrecorded (s.1, s.2.recording []) stimuli
  have more := run_map (isHom_prepended log) (s.1, s.2.recording []) stimuli
  rw [Devices.recording_prepend] at more
  exact recorded bare more

theorem linkCalls_cons (s : Console cols rows × Devices ℓ κ β σ) (e : Stimulus)
    (stimuli : List Stimulus) :
    linkCalls s (e :: stimuli) = stimulusCalls s e ++ linkCalls (stimulate s e) stimuli := by
  rw [linkCalls, run_cons, stimulate_recording, run_recording, List.nil_append]
  rfl

end Recording

end Console

end SerialTerminal
