/-
Every ring is sounded once.

A beeper is rung at any moment and told the time at others, in any order. What can be heard
of that is a log: rings that are accepted, tones that start and end, and gaps that end. The
log is read off the phases before and after each call, so it does not repeat what the code
does.

**The number of queued beeps is that of the accepted rings less that of the gaps that have
ended** (`rings_accounted`), because a beep leaves the queue at the end of its gap. So the
beep that sounds is still in the queue, and the queue is not empty when one leaves it: this
is the invariant which carries the rest. A ring that finds eight beeps queued is not
accepted and leaves no trace.

All that a call can do is said once, in `Beeper.Step`.
-/
import SerialTerminal.Bell.Beeper

set_option autoImplicit false

namespace SerialTerminal

/-! ## Pins -/

/-- Writes to the pin succeed: it is at the level that was written last. -/
structure OutputPin.Obeys {ρ : Type} [OutputPin ρ] (isHigh : ρ → Bool) : Prop where
  low : ∀ pin, isHigh (OutputPin.setLow pin) = false
  high : ∀ pin, isHigh (OutputPin.setHigh pin) = true

/-- A pin that keeps what is written to it, `true` for high. -/
structure PinTrace where
  /-- Oldest first. -/
  levels : List Bool
  deriving DecidableEq

namespace PinTrace

instance : OutputPin PinTrace where
  setLow pin := ⟨pin.levels ++ [false]⟩
  setHigh pin := ⟨pin.levels ++ [true]⟩

/-- The level that was written last. -/
def isHigh (pin : PinTrace) : Bool :=
  pin.levels.getLast?.getD false

theorem obeys : OutputPin.Obeys isHigh := by
  refine ⟨?_, ?_⟩
  · intro pin
    exact congrArg (Option.getD · false) (List.getLast?_concat ..)
  · intro pin
    exact congrArg (Option.getD · false) (List.getLast?_concat ..)

end PinTrace

namespace Beeper

variable {ρ : Type}

/-! ## Calls and what they lead to -/

/-- What is done with a beeper, with times as the caller has them. -/
inductive Call (τ : Type) where
  | ring
  | tick (now : τ)
  deriving DecidableEq

/-- What becomes of rings and beeps. The gap begins when the tone ends. -/
inductive Event where
  | accepted
  | toneStarted
  | toneEnded
  | gapEnded
  deriving DecidableEq

/-- What ends with a phase. -/
def Phase.closing : Phase → List Event
  | idle => []
  | sounding _ => [.toneEnded]
  | gap _ => [.gapEnded]

/-- What starts with a phase. -/
def Phase.opening : Phase → List Event
  | idle => []
  | sounding _ => [.toneStarted]
  | gap _ => []

/-- What is heard when one phase follows another. -/
def Phase.events (before after : Phase) : List Event :=
  if before = after then [] else before.closing ++ after.opening

theorem Phase.events_self (p : Phase) : p.events p = [] :=
  if_pos rfl

variable [OutputPin ρ]

def perform (b : Beeper ρ) : Call Instant → Beeper ρ
  | .ring => b.ring
  | .tick now => b.tick now

def performAll (b : Beeper ρ) (calls : List (Call Instant)) : Beeper ρ :=
  calls.foldl perform b

/-- What one call leads to. A ring is accepted while fewer than eight beeps are queued. -/
def eventsOf (b : Beeper ρ) : Call Instant → List Event
  | .ring => (if b.pending < 8 then [.accepted] else []) ++ b.phase.events b.ring.phase
  | .tick now => b.phase.events (b.tick now).phase

/-- What calls lead to, oldest first. -/
def log (b : Beeper ρ) : List (Call Instant) → List Event
  | [] => []
  | call :: rest => b.eventsOf call ++ (b.perform call).log rest

/-- **Everything that a call can do**, with what can be heard of it. -/
inductive Step (b : Beeper ρ) : Call Instant → Beeper ρ → List Event → Prop where
  /-- The queue takes the ring. -/
  | queued (room : b.pending < 8) :
      Step b .ring { b with pending := b.pending + 1 } [.accepted]
  /-- The queue is full. -/
  | dropped (full : 8 ≤ b.pending) : Step b .ring b []
  /-- There is nothing to do yet. -/
  | waited (now : Instant) : Step b (.tick now) b []
  /-- The oldest beep starts. -/
  | started (now : Instant) (phase_eq : b.phase = .idle) (some_pending : 0 < b.pending) :
      Step b (.tick now) (b.startTone now) [.toneStarted]
  /-- The tone has been on long enough. -/
  | silenced (now deadline : Instant) (phase_eq : b.phase = .sounding deadline) :
      Step b (.tick now) (b.startGap now) [.toneEnded]
  /-- A beep is over, and the next one starts. -/
  | resumed (now deadline : Instant) (phase_eq : b.phase = .gap deadline)
      (more : 0 < b.pending - 1) :
      Step b (.tick now) ({ b with pending := b.pending - 1 }.startTone now)
        [.gapEnded, .toneStarted]
  /-- A beep is over, and it was the last one. -/
  | finished (now deadline : Instant) (phase_eq : b.phase = .gap deadline)
      (last : b.pending - 1 = 0) :
      Step b (.tick now) { b with pending := b.pending - 1, phase := .idle } [.gapEnded]

theorem step_ring (b : Beeper ρ) : b.Step .ring b.ring (b.eventsOf .ring) := by
  rw [eventsOf, phase_ring, Phase.events_self, List.append_nil]
  by_cases room : b.pending < 8
  · have queued : b.ring = { b with pending := b.pending + 1 } := if_pos room
    rw [if_pos room, queued]
    exact .queued room
  · have dropped : b.ring = b := if_neg room
    rw [if_neg room, dropped]
    exact .dropped (Nat.le_of_not_lt room)

theorem step_tick (b : Beeper ρ) (now : Instant) :
    b.Step (.tick now) (b.tick now) (b.eventsOf (.tick now)) := by
  -- a tick that changes nothing is not heard
  have still : b.tick now = b → b.Step (.tick now) (b.tick now) (b.eventsOf (.tick now)) := by
    intro same
    rw [eventsOf, same, Phase.events_self]
    exact .waited now
  rw [eventsOf] at still ⊢
  cases phase_eq : b.phase with
  | idle =>
    by_cases some_pending : 0 < b.pending
    · have step : b.tick now = b.startTone now := by
        rw [tick, phase_eq]
        exact if_pos some_pending
      rw [step]
      exact .started now phase_eq some_pending
    · rw [← phase_eq]
      apply still
      rw [tick, phase_eq]
      exact if_neg some_pending
  | sounding deadline =>
    by_cases come : now.reached deadline = true
    · have step : b.tick now = b.startGap now := by
        rw [tick, phase_eq]
        exact if_pos come
      rw [step]
      exact .silenced now deadline phase_eq
    · rw [← phase_eq]
      apply still
      rw [tick, phase_eq]
      exact if_neg come
  | gap deadline =>
    by_cases come : now.reached deadline = true
    · have step : b.tick now = b.finishBeep now := by
        rw [tick, phase_eq]
        exact if_pos come
      by_cases more : 0 < b.pending - 1
      · have next : b.finishBeep now = { b with pending := b.pending - 1 }.startTone now :=
          if_pos more
        rw [step, next]
        exact .resumed now deadline phase_eq more
      · have finished : b.finishBeep now = { b with pending := b.pending - 1, phase := .idle } :=
          if_neg more
        rw [step, finished]
        exact .finished now deadline phase_eq (Nat.eq_zero_of_not_pos more)
    · rw [← phase_eq]
      apply still
      rw [tick, phase_eq]
      exact if_neg come

theorem step_perform (b : Beeper ρ) (call : Call Instant) :
    b.Step call (b.perform call) (b.eventsOf call) := by
  cases call with
  | ring => exact b.step_ring
  | tick now => exact b.step_tick now

/-! ## What a call brings into balance -/

/-- What is heard of one beep. -/
def beep : List Event := [.toneStarted, .toneEnded, .gapEnded]

/-- What has been heard of the beep that is under way. -/
def Phase.heard : Phase → List Event
  | idle => []
  | sounding _ => [.toneStarted]
  | gap _ => [.toneStarted, .toneEnded]

/-- The number of beeps under way. -/
def Phase.underWay (p : Phase) : Nat :=
  if p = idle then 0 else 1

/-- Some beeps one after the other. -/
def beeps (n : Nat) : List Event :=
  (List.replicate n beep).flatten

theorem beeps_add (m n : Nat) : beeps (m + n) = beeps m ++ beeps n := by
  rw [beeps, ← List.replicate_append_replicate, List.flatten_append]
  rfl

namespace Step

variable {b b' : Beeper ρ} {call : Call Instant} {events : List Event}

theorem pending_le (step : b.Step call b' events) (h : b.pending ≤ 8) : b'.pending ≤ 8 := by
  cases step with
  | queued room => exact room
  | dropped full => exact h
  | waited now => exact h
  | started now phase_eq some_pending => exact h
  | silenced now deadline phase_eq => exact h
  | resumed now deadline phase_eq more => exact Nat.le_trans (Nat.sub_le ..) h
  | finished now deadline phase_eq last => exact Nat.le_trans (Nat.sub_le ..) h

/-- A beep that is under way after the call was in the queue before, or it has just been
found there. -/
theorem pending_pos (step : b.Step call b' events) (h : b.phase ≠ .idle → 1 ≤ b.pending)
    (busy : b'.phase ≠ .idle) : 1 ≤ b'.pending := by
  cases step with
  | queued room => exact Nat.le_add_left 1 b.pending
  | dropped full => exact h busy
  | waited now => exact h busy
  | started now phase_eq some_pending => exact some_pending
  | silenced now deadline phase_eq => exact h (by rw [phase_eq]; nofun)
  | resumed now deadline phase_eq more => exact more
  | finished now deadline phase_eq last => exact absurd rfl busy

theorem isHigh_pin {isHigh : ρ → Bool} (obeys : OutputPin.Obeys isHigh)
    (step : b.Step call b' events) (h : isHigh b.pin = b.isSounding) :
    isHigh b'.pin = b'.isSounding := by
  cases step with
  | queued room => exact h
  | dropped full => exact h
  | waited now => exact h
  | started now phase_eq some_pending => exact obeys.high b.pin
  | silenced now deadline phase_eq => exact obeys.low b.pin
  | resumed now deadline phase_eq more => exact obeys.high b.pin
  | finished now deadline phase_eq last =>
    rw [isSounding, phase_eq] at h
    exact h

/-- **A beep enters the queue with its ring and leaves it with its gap.** It is there to be
taken out, so that the subtraction never stops at zero. -/
theorem pending_balance (step : b.Step call b' events) (h : b.phase ≠ .idle → 1 ≤ b.pending) :
    b'.pending + events.count .gapEnded = b.pending + events.count .accepted := by
  cases step with
  | queued room => rfl
  | dropped full => rfl
  | waited now => rfl
  | started now phase_eq some_pending => rfl
  | silenced now deadline phase_eq => rfl
  | resumed now deadline phase_eq more =>
    have there : 1 ≤ b.pending := h (by rw [phase_eq]; nofun)
    exact Nat.sub_add_cancel there
  | finished now deadline phase_eq last =>
    have there : 1 ≤ b.pending := h (by rw [phase_eq]; nofun)
    exact Nat.sub_add_cancel there

theorem tones_balance (step : b.Step call b' events) :
    b.phase.underWay + events.count .toneStarted =
      events.count .gapEnded + b'.phase.underWay := by
  cases step with
  | queued room => exact Nat.add_comm ..
  | dropped full => exact Nat.add_comm ..
  | waited now => exact Nat.add_comm ..
  | started now phase_eq some_pending => rw [phase_eq]; rfl
  | silenced now deadline phase_eq => rw [phase_eq]; rfl
  | resumed now deadline phase_eq more => rw [phase_eq]; rfl
  | finished now deadline phase_eq last => rw [phase_eq]; rfl

/-- **The beep under way goes on where it is**: what is heard of it now follows on what was
heard before, and only a whole beep makes room for the next one. -/
theorem heard_balance (step : b.Step call b' events) :
    b.phase.heard ++ events.filter (· ≠ .accepted) =
      beeps (events.count .gapEnded) ++ b'.phase.heard := by
  cases step with
  | queued room => exact List.append_nil _
  | dropped full => exact List.append_nil _
  | waited now => exact List.append_nil _
  | started now phase_eq some_pending => rw [phase_eq]; rfl
  | silenced now deadline phase_eq => rw [phase_eq]; rfl
  | resumed now deadline phase_eq more => rw [phase_eq]; rfl
  | finished now deadline phase_eq last => rw [phase_eq]; rfl

end Step

/-! ## The account of a run -/

/-- A beeper and what has been heard of it agree. -/
structure Accounts (isHigh : ρ → Bool) (log : List Event) (b : Beeper ρ) : Prop where
  pending_le : b.pending ≤ 8
  /-- The pin is high exactly while the tone is on. -/
  isHigh_pin : isHigh b.pin = b.isSounding
  /-- The beep that is under way is in the queue. -/
  pending_pos : b.phase ≠ .idle → 1 ≤ b.pending
  /-- What was accepted and is not over is in the queue. -/
  pending_eq : b.pending + log.count .gapEnded = log.count .accepted
  /-- What has started is over or under way. -/
  tones_eq : log.count .toneStarted = log.count .gapEnded + b.phase.underWay
  /-- The beeps come one after the other, each with one tone and one gap. -/
  in_turn : log.filter (· ≠ .accepted) = beeps (log.count .gapEnded) ++ b.phase.heard

variable {isHigh : ρ → Bool} {past : List Event}

theorem accounts_onPin (obeys : OutputPin.Obeys isHigh) (pin : ρ) :
    Accounts isHigh [] (onPin pin) :=
  ⟨Nat.zero_le 8, obeys.low pin, fun busy => absurd rfl busy, rfl, rfl, rfl⟩

/-- **One call keeps the account.** -/
theorem Accounts.step {b b' : Beeper ρ} {call : Call Instant} {events : List Event}
    (obeys : OutputPin.Obeys isHigh) (h : Accounts isHigh past b)
    (step : b.Step call b' events) : Accounts isHigh (past ++ events) b' where
  pending_le := step.pending_le h.pending_le
  isHigh_pin := step.isHigh_pin obeys h.isHigh_pin
  pending_pos := step.pending_pos h.pending_pos
  pending_eq := by
    have before := h.pending_eq
    have change := step.pending_balance h.pending_pos
    rw [List.count_append, List.count_append]
    omega
  tones_eq := by
    have before := h.tones_eq
    have change := step.tones_balance
    rw [List.count_append, List.count_append]
    omega
  in_turn := by
    calc (past ++ events).filter (· ≠ .accepted)
        = beeps (past.count .gapEnded) ++ (b.phase.heard ++ events.filter (· ≠ .accepted)) := by
          rw [List.filter_append, h.in_turn, List.append_assoc]
      _ = beeps ((past ++ events).count .gapEnded) ++ b'.phase.heard := by
          rw [step.heard_balance, List.count_append, beeps_add, List.append_assoc]

theorem Accounts.performAll {b : Beeper ρ} (obeys : OutputPin.Obeys isHigh)
    (h : Accounts isHigh past b) (calls : List (Call Instant)) :
    Accounts isHigh (past ++ b.log calls) (b.performAll calls) := by
  induction calls generalizing b past with
  | nil =>
    rw [log, List.append_nil]
    exact h
  | cons call rest ih =>
    rw [log, ← List.append_assoc]
    exact ih (h.step obeys (b.step_perform call))

/-- **Every accepted ring is sounded once.** However rings and ticks follow one another and
whatever the clock shows, at most eight beeps are queued; the pin is high exactly while a
tone is on; a beep under way is in the queue, which holds the accepted rings whose gap is
not over; as many tones have started as gaps have ended, and one more while a beep is under
way; and what was heard is that many whole beeps, tone and gap, and the beginning of one. -/
theorem rings_accounted (obeys : OutputPin.Obeys isHigh) (pin : ρ)
    (calls : List (Call Instant)) :
    Accounts isHigh ((onPin pin).log calls) ((onPin pin).performAll calls) :=
  (accounts_onPin obeys pin).performAll obeys calls

/-- A ring during a tone and another one during the gap after it, on a clock that stands still
and jumps. -/
theorem rings_accounted_during_a_beep :
    let calls : List (Call Instant) :=
      [.ring, .tick 0, .ring, .tick 0, .tick 100, .ring, .tick 4294967295, .tick 300, .tick 400]
    OutputPin.Obeys PinTrace.isHigh ∧
      (onPin (⟨[]⟩ : PinTrace)).log calls =
        [.accepted, .toneStarted, .accepted, .toneEnded, .accepted, .gapEnded, .toneStarted,
          .toneEnded] ∧
      Accounts PinTrace.isHigh ((onPin (⟨[]⟩ : PinTrace)).log calls)
        ((onPin (⟨[]⟩ : PinTrace)).performAll calls) :=
  ⟨PinTrace.obeys, by decide +kernel, rings_accounted PinTrace.obeys _ _⟩

end Beeper

end SerialTerminal
