/-
The poll loop, where everything meets.

Each turn does the same five things in the same order:

1. interpret a batch of received bytes,
2. ask the keyboard, fire repeats, set the lamps,
3. route the queued keys,
4. hand queued bytes to the serial link,
5. give the bell the time.

None of them waits. Received bytes come in through `receive`, which stands for
the receive interrupt and may happen between any two turns. What lies outside
the console (link, keyboard, bell, configuration surface) is passed in as
`Devices` and handed back as the turn left it.
-/
import SerialTerminal.Keyboard
import SerialTerminal.Ring.Halves
import SerialTerminal.Router
import SerialTerminal.Serial.Link

set_option autoImplicit false

namespace SerialTerminal

namespace Console

/-- Slots of the receive ring. -/
def rxSlots : Nat := 1000

/-- Slots of the transmit ring. -/
def txSlots : Nat := 100

/-- Slots of the key queue. -/
def keySlots : Nat := 32

/-- The most received bytes that one turn interprets. -/
def rxBatch : Nat := 64

end Console

open Console

/-- Terminal, keyboard and routing for one screen and one serial line. -/
structure Console (cols rows : Nat) where
  terminal : Terminal cols rows
  keyboard : Keyboard
  /-- Decoded keys that wait to be routed. -/
  keys : Ring KeyToken keySlots
  /-- Bytes that wait for the transmitter. -/
  tx : Ring UInt8 txSlots
  /-- Bytes that were received and wait to be interpreted. -/
  rx : Ring UInt8 rxSlots
  router : Router
  /-- The settings in effect. -/
  settings : Settings

/-- What the console works with but does not own. -/
structure Devices (ℓ κ β σ : Type) where
  link : ℓ
  keyboard : κ
  bell : β
  surface : σ

namespace Console

variable {ℓ κ β σ : Type} {cols rows : Nat}

/-! ## Settings and status -/

/-- Redraws the status row. -/
def redrawStatus (c : Console cols rows) : Console cols rows :=
  { c with terminal := c.terminal.drawStatus c.router.mode c.settings.serial }

/-- Puts settings into effect. The link is asked only when the line settings
change; whether it complied makes no difference to what follows. -/
def apply [SerialLink ℓ] (c : Console cols rows) (settings : Settings) (link : ℓ) :
    Console cols rows × ℓ :=
  let link :=
    if settings.serial ≠ c.settings.serial then
      (SerialLink.reconfigure link settings.serial).1
    else link
  ({ c with settings, terminal := (c.terminal.apply settings).reset }.redrawStatus, link)

/-- A console that has shown its banner and rung the bell once. The link is
expected to be set as the settings say. -/
def start [Bell β] (cols rows : Nat) (settings : Settings) (layout : Layout) (bell : β) :
    Console cols rows × β :=
  let c : Console cols rows :=
    { terminal := (Terminal.create cols rows settings).banner
      keyboard := .create layout
      keys := .empty (by decide)
      tx := .empty (by decide)
      rx := .empty (by decide)
      router := {}
      settings }
  (c.redrawStatus, Bell.ring bell)

/-! ## The receive interrupt -/

/-- Takes one byte from the line between two turns; `false` when the receive
ring is full and the byte is lost. -/
def receive (c : Console cols rows) (b : UInt8) : Console cols rows × Bool :=
  let pushed := Ring.Producer.push c.rx b
  ({ c with rx := pushed.1 }, pushed.2)

/-! ## The five parts of a turn -/

/-- Interprets a batch of received bytes. -/
def interpretReceived [Bell β] (c : Console cols rows) (d : Devices ℓ κ β σ) :
    Console cols rows × Devices ℓ κ β σ :=
  let batch := c.rx.drain rxBatch
  let printed := c.terminal.print batch.2 d.bell
  ({ c with rx := batch.1, terminal := printed.1 }, { d with bell := printed.2 })

/-- Takes the next report, if there is one, and queues its tokens. -/
def takeReport [KeyboardHost κ] (c : Console cols rows) (now : Instant)
    (d : Devices ℓ κ β σ) : Console cols rows × Devices ℓ κ β σ :=
  let asked := KeyboardHost.nextReport d.keyboard
  let d := { d with keyboard := asked.1 }
  match asked.2 with
  | none => (c, d)
  | some report =>
    let pressed := c.keyboard.report report now
    ({ c with keyboard := pressed.1, keys := c.keys.pushAll pressed.2 }, d)

/-- Queues the tokens of the held keys that are due. -/
def repeatKeys (c : Console cols rows) (now : Instant) : Console cols rows :=
  let fired := c.keyboard.fireRepeats now
  { c with keyboard := fired.1, keys := c.keys.pushAll fired.2 }

/-- Sets the lamps of the keyboard, if they changed. -/
def updateLeds [KeyboardHost κ] (c : Console cols rows) (d : Devices ℓ κ β σ) :
    Console cols rows × Devices ℓ κ β σ :=
  let taken := c.keyboard.takeLeds
  let c := { c with keyboard := taken.1 }
  match taken.2 with
  | none => (c, d)
  | some leds => (c, { d with keyboard := KeyboardHost.setLeds d.keyboard leds })

/-- Asks the keyboard, fires repeats and sets the lamps. -/
def pollKeyboard [KeyboardHost κ] (c : Console cols rows) (now : Instant)
    (d : Devices ℓ κ β σ) : Console cols rows × Devices ℓ κ β σ :=
  let reported := c.takeReport now d
  (reported.1.repeatKeys now).updateLeds reported.2

/-- Routes one token and reacts to what it changed. -/
def routeKey [SerialLink ℓ] [Bell β] [ConfigSurface σ cols rows]
    (state : Console cols rows × Devices ℓ κ β σ) (token : KeyToken) :
    Console cols rows × Devices ℓ κ β σ :=
  let (c, d) := state
  let (router, e, event) := c.router.dispatch token c.settings
    ({ terminal := c.terminal, tx := c.tx, bell := d.bell, surface := d.surface } :
      Endpoints β σ cols rows txSlots)
  let c := { c with router, terminal := e.terminal, tx := e.tx }
  let d := { d with bell := e.bell, surface := e.surface }
  match event with
  | none => (c, d)
  | some (.entered _) => (c.redrawStatus, d)
  | some (.configured settings) =>
    let applied := c.apply settings d.link
    (applied.1, { d with link := applied.2 })

/-- Routes all queued keys, oldest first. -/
def routeKeys [SerialLink ℓ] [Bell β] [ConfigSurface σ cols rows] (c : Console cols rows)
    (d : Devices ℓ κ β σ) : Console cols rows × Devices ℓ κ β σ :=
  let drained := c.keys.drain c.keys.size
  drained.2.foldl routeKey ({ c with keys := drained.1 }, d)

/-- Offers the oldest bytes of a ring to the link, at most as many as the first
argument says. A byte leaves the ring only when the link has taken it, and the
first one that is not taken ends the attempt. -/
def transmit [SerialLink ℓ] {slots : Nat} :
    Nat → Ring UInt8 slots → ℓ → Ring UInt8 slots × ℓ
  | 0, tx, link => (tx, link)
  | n + 1, tx, link =>
    match tx.peek? with
    | none => (tx, link)
    | some b =>
      match SerialLink.ready link with
      | (link, .ready) =>
        match SerialLink.send link b with
        | (link, .taken) => transmit n tx.pop.1 link
        | (link, .refused) => (tx, link)
        | (link, .failed) => (tx, link)
      | (link, .busy) => (tx, link)
      | (link, .failed) => (tx, link)

/-- Hands queued bytes to the link until it has enough or none are left. -/
def transmitQueued [SerialLink ℓ] (c : Console cols rows) (d : Devices ℓ κ β σ) :
    Console cols rows × Devices ℓ κ β σ :=
  let sent := transmit c.tx.size c.tx d.link
  ({ c with tx := sent.1 }, { d with link := sent.2 })

/-- **One turn of the loop.** -/
def poll [SerialLink ℓ] [KeyboardHost κ] [Bell β] [ConfigSurface σ cols rows]
    (c : Console cols rows) (now : Instant) (d : Devices ℓ κ β σ) :
    Console cols rows × Devices ℓ κ β σ :=
  let (c, d) := c.interpretReceived d
  let (c, d) := c.pollKeyboard now d
  let (c, d) := c.routeKeys d
  let (c, d) := c.transmitQueued d
  (c, { d with bell := Bell.tick d.bell now })

end Console

end SerialTerminal
