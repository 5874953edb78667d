/-
Where a keystroke can end.

`Routed` says once what the router does with a token. It has a constructor for each way
through it, and in each the three destinations can be read off: the ring for the host, the
interpreter with its bell, and the configuration surface. All that is shown about the
router afterwards is shown by cases on it, so only `routed_dispatch` opens the router.

A run is a list of inputs: tokens, each with the settings in effect when it comes, and
bytes that are taken from the ring on its other side. **What is typed for one destination
reaches that one and no other** (`keystrokes_isolated`). For the ring this is a statement
about whole runs, since a full ring drops what it is offered and the offers cannot be read
off its contents: the ring is called with the bytes of what was typed for the host, with
the reads from the other side, and with nothing else.
-/
import SerialTerminal.Proofs.Ring.Fifo
import SerialTerminal.Router

set_option autoImplicit false

namespace SerialTerminal

namespace Router

variable {β σ : Type} {cols rows slots : Nat} [Bell β] [ConfigSurface σ cols rows]

/-! ## One token -/

/-- **All that can become of a token.** -/
inductive Routed (r : Router) (settings : Settings) (e : Endpoints β σ cols rows slots) :
    KeyToken → Router × Endpoints β σ cols rows slots × Option RouterEvent → Prop where
  /-- The surface draws itself for a fresh edit, in every mode. -/
  | opened :
      Routed r settings e (.alt .config)
        (⟨.config, settings⟩,
          { e with
            surface := (ConfigSurface.enter e.surface settings e.terminal).1
            terminal := (ConfigSurface.enter e.surface settings e.terminal).2 },
          some (.entered .config))
  | toLoopback (mode_eq : r.mode = .online) :
      Routed r settings e (.alt .toggleLocal)
        (⟨.loopback, r.draft⟩, e, some (.entered .loopback))
  | toHost (mode_eq : r.mode = .loopback) :
      Routed r settings e (.alt .toggleLocal) (⟨.online, r.draft⟩, e, some (.entered .online))
  /-- Two commands mean nothing, and a third one means nothing while settings are edited. -/
  | ignored (a : AltKey) (other : a ≠ .config) (editing : a = .toggleLocal → r.mode = .config) :
      Routed r settings e (.alt a) (r, e, none)
  | sent (token : KeyToken) (plain : token.isAlt = false) (mode_eq : r.mode = .online) :
      Routed r settings e token (r, { e with tx := e.tx.pushAll token.bytes }, none)
  | echoed (token : KeyToken) (plain : token.isAlt = false) (mode_eq : r.mode = .loopback) :
      Routed r settings e token
        (r, { e with
          terminal := (e.terminal.print token.bytes e.bell).1
          bell := (e.terminal.print token.bytes e.bell).2 }, none)
  | edited (token : KeyToken) (plain : token.isAlt = false) (mode_eq : r.mode = .config)
      (reply : ConfigReply σ cols rows)
      (reply_eq : ConfigSurface.key e.surface token r.draft e.terminal = reply)
      (more : reply.done = false) :
      Routed r settings e token
        (⟨.config, reply.draft⟩,
          { e with surface := reply.surface, terminal := reply.terminal }, none)
  | finished (token : KeyToken) (plain : token.isAlt = false) (mode_eq : r.mode = .config)
      (reply : ConfigReply σ cols rows)
      (reply_eq : ConfigSurface.key e.surface token r.draft e.terminal = reply)
      (done : reply.done = true) :
      Routed r settings e token
        (⟨.online, reply.draft⟩,
          { e with surface := reply.surface, terminal := reply.terminal },
          some (.configured reply.draft))

theorem routed_command (r : Router) (a : AltKey) (settings : Settings)
    (e : Endpoints β σ cols rows slots) :
    r.Routed settings e (.alt a) (r.command a settings e) := by
  obtain ⟨mode, draft⟩ := r
  cases a with
  | config => exact .opened
  | toggleLocal =>
    cases mode with
    | online => exact .toLoopback rfl
    | loopback => exact .toHost rfl
    | config => exact .ignored .toggleLocal nofun fun _ => rfl
  | record => exact .ignored .record nofun nofun
  | transmit => exact .ignored .transmit nofun nofun

theorem routed_deliver (r : Router) (token : KeyToken) (plain : token.isAlt = false)
    (settings : Settings) (e : Endpoints β σ cols rows slots) :
    r.Routed settings e token (r.deliver token e) := by
  obtain ⟨mode, draft⟩ := r
  cases mode with
  | online => exact .sent token plain rfl
  | loopback => exact .echoed token plain rfl
  | config =>
    rw [deliver]
    dsimp only
    by_cases done : (ConfigSurface.key e.surface token draft e.terminal).done = true
    · rw [if_pos done]
      exact .finished token plain rfl _ rfl done
    · rw [if_neg done]
      exact .edited token plain rfl _ rfl (Bool.not_eq_true _ ▸ done)

/-- **There is no other way through the router.** -/
theorem routed_dispatch (r : Router) (token : KeyToken) (settings : Settings)
    (e : Endpoints β σ cols rows slots) :
    r.Routed settings e token (r.dispatch token settings e) := by
  cases token with
  | alt a => exact routed_command r a settings e
  | byte b => exact routed_deliver r (.byte b) rfl settings e
  | special k => exact routed_deliver r (.special k) rfl settings e

/-! ## Runs -/

/-- What happens to a router and the ring behind it. -/
inductive Input where
  /-- A token comes while the given settings are in effect. -/
  | token (token : KeyToken) (settings : Settings)
  /-- The oldest byte is taken from the ring, if there is one. -/
  | take
  deriving DecidableEq

/-- The bytes of the input, when it is a token. -/
def Input.bytes : Input → List UInt8
  | token t _ => t.bytes
  | take => []

/-- The input is a command. -/
def Input.isCommand : Input → Bool
  | token t _ => t.isAlt
  | take => false

def feed (s : Router × Endpoints β σ cols rows slots) :
    Input → Router × Endpoints β σ cols rows slots
  | .token t settings =>
    let out := s.1.dispatch t settings s.2
    (out.1, out.2.1)
  | .take => (s.1, { s.2 with tx := s.2.tx.pop.1 })

def feedAll (s : Router × Endpoints β σ cols rows slots) (inputs : List Input) :
    Router × Endpoints β σ cols rows slots :=
  inputs.foldl feed s

/-- The inputs of a run, each with the mode that it met. -/
def met (s : Router × Endpoints β σ cols rows slots) : List Input → List (Mode × Input)
  | [] => []
  | i :: rest => (s.1.mode, i) :: met (feed s i) rest

/-- The bytes that were typed for the host: those of a token that is no command and met
the online mode. -/
def forHost : Mode × Input → List UInt8
  | (.online, .token t _) => if t.isAlt then [] else t.bytes
  | _ => []

/-- What an input may ask of the ring. -/
def ringCalls : Mode × Input → List (RingCall UInt8)
  | (_, .take) => [.pop]
  | (mode, .token t settings) => (forHost (mode, .token t settings)).map .push

/-! ## The ring for the host -/

omit [Bell β] [ConfigSurface σ cols rows] in
theorem callAll_push (tx : Ring UInt8 slots) (bytes : List UInt8) :
    (callAll Ring.perform tx (bytes.map .push)).1 = tx.pushAll bytes := by
  induction bytes generalizing tx with
  | nil => rfl
  | cons b rest ih => exact ih (tx.push b).1

/-- An input reaches the ring by its calls alone. -/
theorem tx_feed (s : Router × Endpoints β σ cols rows slots) (i : Input) :
    (feed s i).2.tx = (callAll Ring.perform s.2.tx (ringCalls (s.1.mode, i))).1 := by
  obtain ⟨r, e⟩ := s
  cases i with
  | take => rfl
  | token t settings =>
    have routed := r.routed_dispatch t settings e
    have silent : forHost (r.mode, .token t settings) = [] →
        e.tx = (callAll Ring.perform e.tx (ringCalls (r.mode, .token t settings))).1 := by
      intro none
      rw [ringCalls, none]
      rfl
    dsimp only [feed]
    generalize r.dispatch t settings e = out at routed
    -- one case sends; in the others nothing is typed for the host
    cases routed with
    | sent _ plain mode_eq =>
      have typed : forHost (r.mode, .token t settings) = t.bytes := by
        rw [mode_eq, forHost, plain]
        rfl
      rw [ringCalls, typed, callAll_push]
    | opened | toLoopback | toHost | ignored =>
      refine silent ?_
      cases r.mode <;> rfl
    | echoed _ _ mode_eq | edited _ _ mode_eq | finished _ _ mode_eq =>
      refine silent ?_
      rw [mode_eq]
      rfl

theorem tx_feedAll (s : Router × Endpoints β σ cols rows slots) (inputs : List Input) :
    (feedAll s inputs).2.tx =
      (callAll Ring.perform s.2.tx ((met s inputs).flatMap ringCalls)).1 := by
  induction inputs generalizing s with
  | nil => rfl
  | cons i rest ih =>
    have later := ih (feed s i)
    rw [tx_feed] at later
    rw [met, List.flatMap_cons, callAll_append]
    exact later

omit [Bell β] [ConfigSurface σ cols rows] in
theorem offered_ringCalls (m : Mode × Input) :
    (ringCalls m).filterMap RingCall.offered? = forHost m := by
  obtain ⟨mode, i⟩ := m
  cases i with
  | take => cases mode <;> rfl
  | token t settings =>
    rw [ringCalls, List.filterMap_map]
    exact List.filterMap_some

theorem offered_flatMap_ringCalls (h : List (Mode × Input)) :
    (h.flatMap ringCalls).filterMap RingCall.offered? = h.flatMap forHost := by
  induction h with
  | nil => rfl
  | cons m rest ih =>
    rw [List.flatMap_cons, List.filterMap_append, offered_ringCalls, ih, List.flatMap_cons]

/-! ## The other destinations -/

/-- What a token reaches, by the mode that it meets, when `s` is the state before it and
`s'` the one after. -/
structure Isolated (s s' : Router × Endpoints β σ cols rows slots) (t : KeyToken)
    (settings : Settings) : Prop where
  /-- Online: neither the terminal nor the bell nor the surface. -/
  online : t.isAlt = false → s.1.mode = .online →
    s'.2.terminal = s.2.terminal ∧ s'.2.bell = s.2.bell ∧ s'.2.surface = s.2.surface
  /-- Local: the interpreter reads its bytes, and nothing else happens. -/
  loopback : t.isAlt = false → s.1.mode = .loopback →
    s'.2.tx = s.2.tx ∧ s'.2.surface = s.2.surface ∧
      (s'.2.terminal, s'.2.bell) = s.2.terminal.print t.bytes s.2.bell
  /-- Configuration: the surface gets it, and what changes on the terminal is the surface's
  doing. -/
  config : t.isAlt = false → s.1.mode = .config →
    let reply := ConfigSurface.key s.2.surface t s.1.draft s.2.terminal
    s'.2.tx = s.2.tx ∧ s'.2.bell = s.2.bell ∧ s'.2.surface = reply.surface ∧
      s'.2.terminal = reply.terminal
  /-- Commands: the only one that reaches anything opens the surface. -/
  command : ∀ a, t = .alt a →
    let opened := ConfigSurface.enter s.2.surface settings s.2.terminal
    s'.2.tx = s.2.tx ∧ s'.2.bell = s.2.bell ∧
      s'.2.surface = (if a = .config then opened.1 else s.2.surface) ∧
      s'.2.terminal = (if a = .config then opened.2 else s.2.terminal)

theorem isolated_feed (s : Router × Endpoints β σ cols rows slots) (t : KeyToken)
    (settings : Settings) : Isolated s (feed s (.token t settings)) t settings := by
  obtain ⟨⟨mode, draft⟩, e⟩ := s
  have routed := (⟨mode, draft⟩ : Router).routed_dispatch t settings e
  have noCommand : ∀ a, t.isAlt = false → t ≠ .alt a := by
    rintro a plain rfl
    cases plain
  dsimp only [feed]
  generalize (⟨mode, draft⟩ : Router).dispatch t settings e = out at routed
  -- each way through the router belongs to one mode, or to the commands
  cases routed with
  | opened =>
    refine ⟨nofun, nofun, nofun, ?_⟩
    rintro a ⟨rfl⟩
    exact ⟨rfl, rfl, (if_pos rfl).symm, (if_pos rfl).symm⟩
  | toLoopback | toHost =>
    refine ⟨nofun, nofun, nofun, ?_⟩
    rintro a ⟨rfl⟩
    exact ⟨rfl, rfl, (if_neg nofun).symm, (if_neg nofun).symm⟩
  | ignored a other =>
    refine ⟨nofun, nofun, nofun, ?_⟩
    rintro a' ⟨rfl⟩
    exact ⟨rfl, rfl, (if_neg other).symm, (if_neg other).symm⟩
  | sent _ plain mode_eq =>
    cases mode_eq
    refine ⟨fun _ _ => ⟨rfl, rfl, rfl⟩, nofun, nofun, ?_⟩
    exact fun a same => absurd same (noCommand a plain)
  | echoed _ plain mode_eq =>
    cases mode_eq
    refine ⟨nofun, fun _ _ => ⟨rfl, rfl, rfl⟩, nofun, ?_⟩
    exact fun a same => absurd same (noCommand a plain)
  | edited _ plain mode_eq reply reply_eq | finished _ plain mode_eq reply reply_eq =>
    cases mode_eq
    refine ⟨nofun, nofun, ?_, fun a same => absurd same (noCommand a plain)⟩
    intro _ _
    rw [reply_eq]
    exact ⟨rfl, rfl, rfl, rfl⟩

/-- While nothing but bytes is typed in the local mode, it stays, and terminal and bell are
as if the host had sent what was typed. -/
theorem feedAll_loopback (s : Router × Endpoints β σ cols rows slots) (inputs : List Input)
    (here : s.1.mode = .loopback) (plain : ∀ i ∈ inputs, i.isCommand = false) :
    (feedAll s inputs).1.mode = .loopback ∧
      ((feedAll s inputs).2.terminal, (feedAll s inputs).2.bell) =
        s.2.terminal.print (inputs.flatMap Input.bytes) s.2.bell := by
  induction inputs generalizing s with
  | nil => exact ⟨here, rfl⟩
  | cons i rest ih =>
    obtain ⟨first, later⟩ := List.forall_mem_cons.1 plain
    have step : (feed s i).1.mode = .loopback ∧
        ((feed s i).2.terminal, (feed s i).2.bell) =
          s.2.terminal.print i.bytes s.2.bell := by
      cases i with
      | take => exact ⟨here, rfl⟩
      | token t settings =>
        refine ⟨?_, ((isolated_feed s t settings).loopback first here).2.2⟩
        have routed := s.1.routed_dispatch t settings s.2
        dsimp only [feed]
        generalize s.1.dispatch t settings s.2 = out at routed
        cases routed with
        | echoed => exact here
        | opened | toLoopback | toHost | ignored => cases first
        | sent _ _ mode_eq | edited _ _ mode_eq | finished _ _ mode_eq =>
          cases mode_eq.symm.trans here
    obtain ⟨stays, echoed⟩ := step
    obtain ⟨still, all⟩ := ih (feed s i) stays later
    refine ⟨still, ?_⟩
    have terminal := congrArg Prod.fst echoed
    have bell := congrArg Prod.snd echoed
    dsimp only at terminal bell
    rw [List.flatMap_cons, Terminal.print_append, ← terminal, ← bell]
    exact all

/-- **A keystroke reaches one destination and no other.** In every run of a router, with
tokens and settings as they come and the ring read from its other side at any time:

- the ring is offered the bytes of what was typed for the host and nothing else, it goes
  through these offers and the reads and nothing else, and nothing in it is lost or put out
  of order;
- each token reaches what its mode says, and a command reaches the terminal only by opening
  the surface;
- a stretch typed in the local mode acts on terminal and bell as one transmission of the
  host. -/
theorem keystrokes_isolated (s : Router × Endpoints β σ cols rows slots) (inputs : List Input) :
    let calls := (met s inputs).flatMap ringCalls
    let ring := callAll Ring.perform s.2.tx calls
    (feedAll s inputs).2.tx = ring.1 ∧
      calls.filterMap RingCall.offered? = (met s inputs).flatMap forHost ∧
      s.2.tx.toList ++ RingExchange.accepted ring.2 =
        RingExchange.removed ring.2 ++ (feedAll s inputs).2.tx.toList ∧
      (∀ before t settings after, inputs = before ++ .token t settings :: after →
        Isolated (feedAll s before) (feedAll s (before ++ [.token t settings])) t settings) ∧
      ∀ before stretch after, inputs = before ++ stretch ++ after →
        (feedAll s before).1.mode = .loopback → (∀ i ∈ stretch, i.isCommand = false) →
          ((feedAll s (before ++ stretch)).2.terminal, (feedAll s (before ++ stretch)).2.bell) =
            (feedAll s before).2.terminal.print (stretch.flatMap Input.bytes)
              (feedAll s before).2.bell := by
  intro calls ring
  have reached : (feedAll s inputs).2.tx = ring.1 := tx_feedAll s inputs
  refine ⟨reached, offered_flatMap_ringCalls _, ?_, ?_, ?_⟩
  · rw [reached]
    exact s.2.tx.callAll_conserves calls
  · intro before t settings after _
    have split : feedAll s (before ++ [.token t settings]) =
        feed (feedAll s before) (.token t settings) := List.foldl_append
    rw [split]
    exact isolated_feed _ t settings
  · intro before stretch after _ here plain
    have split : feedAll s (before ++ stretch) = feedAll (feedAll s before) stretch :=
      List.foldl_append
    rw [split]
    exact (feedAll_loopback _ stretch here plain).2

end Router

end SerialTerminal
