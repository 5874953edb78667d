/-
Where a keystroke goes.

             Alt+L                 Alt+C
    LOCAL ◄─────────► ONLINE ◄─────────────► CONFIG
      │                          done           ▲
      └─────────────────────────────────────────┘
                        Alt+C

Commands are looked at first, in every mode. Everything else goes to exactly one
of three places: in the online mode its bytes are queued for the host, in the
local mode the interpreter reads them as if the host had sent them, and in the
configuration mode the surface gets the token itself.

The settings being edited are kept here as a draft. Opening the surface makes
the draft afresh from the settings in effect, also when it is open already.
**The draft takes effect nowhere in this file**: leaving the surface only says
so, in an event.
-/
import SerialTerminal.ConfigSurface
import SerialTerminal.Mode
import SerialTerminal.Ring
import SerialTerminal.Terminal.Interpreter

set_option autoImplicit false

namespace SerialTerminal

/-- What a token changed, as far as others must react to it. -/
inductive RouterEvent where
  /-- This is the mode now. It is also said when the surface is opened again. -/
  | entered (mode : Mode)
  /-- Editing is over and these settings are to take effect. -/
  | configured (settings : Settings)
  deriving DecidableEq

/-- The mode and the settings being edited. -/
structure Router where
  mode : Mode := .online
  draft : Settings := {}
  deriving DecidableEq, Inhabited

/-- The places a keystroke can end in, and the bell that goes with the
terminal. -/
structure Endpoints (β σ : Type) (cols rows txSlots : Nat) where
  terminal : Terminal cols rows
  /-- Bytes for the host. -/
  tx : Ring UInt8 txSlots
  bell : β
  surface : σ

namespace Router

variable {β σ : Type} {cols rows txSlots : Nat}
variable [Bell β] [ConfigSurface σ cols rows]

/-- Carries out a command. The configuration surface is left only by its own
keys, and two commands have no meaning yet. -/
def command (r : Router) (a : AltKey) (settings : Settings)
    (e : Endpoints β σ cols rows txSlots) :
    Router × Endpoints β σ cols rows txSlots × Option RouterEvent :=
  match a with
  | .config =>
    let opened := ConfigSurface.enter e.surface settings e.terminal
    (⟨.config, settings⟩, { e with surface := opened.1, terminal := opened.2 },
      some (.entered .config))
  | .toggleLocal =>
    match r.mode with
    | .online => ({ r with mode := .loopback }, e, some (.entered .loopback))
    | .loopback => ({ r with mode := .online }, e, some (.entered .online))
    | .config => (r, e, none)
  | .record => (r, e, none)
  | .transmit => (r, e, none)

/-- Routes a token that is no command. -/
def deliver (r : Router) (token : KeyToken) (e : Endpoints β σ cols rows txSlots) :
    Router × Endpoints β σ cols rows txSlots × Option RouterEvent :=
  match r.mode with
  | .online => (r, { e with tx := e.tx.pushAll token.bytes }, none)
  | .loopback =>
    let printed := e.terminal.print token.bytes e.bell
    (r, { e with terminal := printed.1, bell := printed.2 }, none)
  | .config =>
    let reply := ConfigSurface.key e.surface token r.draft e.terminal
    let e := { e with surface := reply.surface, terminal := reply.terminal }
    if reply.done then (⟨.online, reply.draft⟩, e, some (.configured reply.draft))
    else ({ r with draft := reply.draft }, e, none)

/-- **Routes one token**, with the given settings in effect. -/
def dispatch (r : Router) (token : KeyToken) (settings : Settings)
    (e : Endpoints β σ cols rows txSlots) :
    Router × Endpoints β σ cols rows txSlots × Option RouterEvent :=
  match token with
  | .alt a => r.command a settings e
  | token => r.deliver token e

end Router

end SerialTerminal
