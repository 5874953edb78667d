/-
A bell made of a buzzer on an output pin.

Rings are queued, up to eight of them, and each is sounded as one tone followed
by a gap, so that a burst of rings is heard as separate beeps. A ring that finds
the queue full is dropped.

    idle ── a beep is queued ──▶ sounding ── 100 ms ──▶ gap ── 200 ms ──▶ idle
                                    ▲                    │
                                    └── more are queued ─┘

A beep leaves the queue at the end of its gap and not before, so the beep that
is sounding counts as queued.

Writing to the pin may fail. The beeper has no use for the news: its timing goes
on, and the next write sets the pin right.
-/
import SerialTerminal.Bell

set_option autoImplicit false

namespace SerialTerminal

/-- An output pin as a state that is written to. -/
class OutputPin (ρ : Type) where
  setLow : ρ → ρ
  setHigh : ρ → ρ

namespace Beeper

/-- How long a tone lasts, in milliseconds. -/
def toneTime : Instant := 100

/-- The silence after a tone, in milliseconds. -/
def gapTime : Instant := 200

/-- The number of beeps that can be queued. -/
def maxPending : Nat := 8

/-- What the buzzer is doing. -/
inductive Phase where
  | idle
  /-- The tone is on until the deadline. -/
  | sounding (deadline : Instant)
  /-- The tone is off until the deadline. -/
  | gap (deadline : Instant)
  deriving DecidableEq

end Beeper

/-- A buzzer on a pin, with the beeps that it has still to finish. -/
structure Beeper (ρ : Type) where
  pin : ρ
  phase : Beeper.Phase
  pending : Nat
  deriving DecidableEq

namespace Beeper

variable {ρ : Type}

/-! ## The queue -/

/-- The tone is on. -/
def isSounding (b : Beeper ρ) : Bool :=
  match b.phase with
  | .sounding _ => true
  | _ => false

/-- Queues one beep, unless the queue is full. -/
def ring (b : Beeper ρ) : Beeper ρ :=
  if b.pending < maxPending then { b with pending := b.pending + 1 } else b

/-- A ring changes neither the pin nor the phase. -/
@[simp] theorem phase_ring (b : Beeper ρ) : b.ring.phase = b.phase := by
  unfold ring
  split <;> rfl

@[simp] theorem pin_ring (b : Beeper ρ) : b.ring.pin = b.pin := by
  unfold ring
  split <;> rfl

/-! ## Timing -/

variable [OutputPin ρ]

/-- A beeper on the given pin, which is driven low. -/
def onPin (pin : ρ) : Beeper ρ :=
  ⟨OutputPin.setLow pin, .idle, 0⟩

/-- Turns the tone on. -/
def startTone (b : Beeper ρ) (now : Instant) : Beeper ρ :=
  { b with pin := OutputPin.setHigh b.pin, phase := .sounding (now + toneTime) }

/-- Turns the tone off. -/
def startGap (b : Beeper ρ) (now : Instant) : Beeper ρ :=
  { b with pin := OutputPin.setLow b.pin, phase := .gap (now + gapTime) }

/-- The beep is over: it leaves the queue, and the next one starts at once. -/
def finishBeep (b : Beeper ρ) (now : Instant) : Beeper ρ :=
  let b := { b with pending := b.pending - 1 }
  if 0 < b.pending then b.startTone now else { b with phase := .idle }

/-- Lets time pass. One call makes at most one step. -/
def tick (b : Beeper ρ) (now : Instant) : Beeper ρ :=
  match b.phase with
  | .idle => if 0 < b.pending then b.startTone now else b
  | .sounding deadline => if now.reached deadline then b.startGap now else b
  | .gap deadline => if now.reached deadline then b.finishBeep now else b

instance : Bell (Beeper ρ) where
  ring := ring
  tick := tick

end Beeper

end SerialTerminal
