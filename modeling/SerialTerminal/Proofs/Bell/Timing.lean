/-
How long a tone lasts, in true time.

The beeper is told the time by a clock that wraps, and compares with its deadline by a
distance on the circle. It is measured against a `Chime`: the same buzzer with a deadline
that is a natural number, compared with `≤`. **As long as two ticks in a row are less than
half a turn of the clock apart, the beeper is the chime with its deadline wrapped**
(`wrapped_performAll`), and so it writes to the pin what the chime writes.

There is one deadline at a time, and it is set by a tick. It lies after the latest tick,
because a tick that finds it passed replaces it, and at most a gap after it. That window is
kept by every tick (`OnTime.tick`), and with the bound on the time to the next one it makes
the wrapped comparison right.

The lengths of tones and gaps are then read off the chime, which does nothing before its
deadline.
-/
import SerialTerminal.Proofs.Bell.Accounting
import Mathlib.Data.List.Chain

set_option autoImplicit false

namespace SerialTerminal

namespace Beeper

variable {ρ : Type}

/-! ## Calls at true times -/

/-- The call as the beeper gets it, with what the clock shows. -/
def Call.shown : Call Nat → Call Instant
  | .ring => .ring
  | .tick t => .tick (.ofTime t)

def Call.time? : Call Nat → Option Nat
  | .ring => none
  | .tick t => some t

/-- The times of the ticks. -/
def tickTimes (calls : List (Call Nat)) : List Nat :=
  calls.filterMap Call.time?

/-- The later tick is no earlier, and less than half a turn of the clock away. -/
def Follows (earlier later : Nat) : Prop :=
  earlier ≤ later ∧ later < earlier + Instant.halfTurn

instance : DecidableRel Follows :=
  fun _ _ => inferInstanceAs (Decidable (_ ∧ _))

/-- Time does not run backwards, and no two ticks in a row are half a turn apart. Nothing
is said of the rings. -/
def WellTimed (calls : List (Call Nat)) : Prop :=
  (tickTimes calls).IsChain Follows

instance : DecidablePred WellTimed :=
  fun calls => inferInstanceAs (Decidable ((tickTimes calls).IsChain Follows))

variable [OutputPin ρ]

/-- What is heard at the ticks, with the true time of each. -/
def heardAt (b : Beeper ρ) : List (Call Nat) → List (Nat × Event)
  | [] => []
  | .ring :: rest => b.ring.heardAt rest
  | .tick t :: rest =>
    (b.eventsOf (.tick (.ofTime t))).map (t, ·) ++ (b.tick (.ofTime t)).heardAt rest

/-- Between the start of a tone and an end there are 100 milliseconds, and between an end
and a start there are 200. -/
structure Spaced (first second : Nat × Event) : Prop where
  tone : first.2 = .toneStarted → second.2 = .toneEnded → first.1 + 100 ≤ second.1
  silence : first.2 = .toneEnded → second.2 = .toneStarted → first.1 + 200 ≤ second.1

end Beeper

/-! ## The reference -/

/-- What a buzzer is doing, with the deadline in true time. -/
inductive Chime.Stage where
  | idle
  | tone (due : Nat)
  | gap (due : Nat)

/-- A buzzer with a deadline in true time. -/
structure Chime (ρ : Type) where
  pin : ρ
  stage : Chime.Stage
  pending : Nat

namespace Chime

open Beeper (Call Event Phase tickTimes Follows)

variable {ρ : Type}

/-- The deadline, if there is one. -/
def Stage.due? : Stage → Option Nat
  | idle => none
  | tone due => some due
  | gap due => some due

/-- The stage with its deadline as the clock shows it. -/
def Stage.wrapped : Stage → Phase
  | idle => .idle
  | tone due => .sounding (.ofTime due)
  | gap due => .gap (.ofTime due)

/-- The beeper with the same deadline as the clock shows it. -/
def wrapped (c : Chime ρ) : Beeper ρ :=
  ⟨c.pin, c.stage.wrapped, c.pending⟩

/-- Queues one beep, unless eight are queued. -/
def ring (c : Chime ρ) : Chime ρ :=
  if c.pending < 8 then { c with pending := c.pending + 1 } else c

theorem stage_ring (c : Chime ρ) : c.ring.stage = c.stage := by
  unfold ring
  split <;> rfl

theorem wrapped_ring (c : Chime ρ) : c.wrapped.ring = c.ring.wrapped := by
  rw [ring, apply_ite wrapped]
  rfl

/-! ## Ticks in time -/

/-- The calls to come are in time for the deadline, which was set or seen ahead by the
latest tick. -/
structure OnTime (c : Chime ρ) (since : Option Nat) (calls : List (Call Nat)) : Prop where
  window : ∀ due ∈ c.stage.due?, ∃ s ∈ since, s < due ∧ due ≤ s + 200
  next : ∀ s ∈ since, ∀ t ∈ (tickTimes calls).head?, Follows s t
  timed : (tickTimes calls).IsChain Follows

theorem OnTime.ring {c : Chime ρ} {since : Option Nat} {calls : List (Call Nat)}
    (h : c.OnTime since (.ring :: calls)) : c.ring.OnTime since calls where
  window := by
    rw [stage_ring]
    exact h.window
  next := h.next
  timed := h.timed

/-- **The clock tells rightly whether the deadline has come.** -/
theorem OnTime.reached_due {c : Chime ρ} {since : Option Nat} {t : Nat}
    {calls : List (Call Nat)} (h : c.OnTime since (.tick t :: calls)) :
    ∀ due ∈ c.stage.due?, Instant.reached (.ofTime t) (.ofTime due) = decide (due ≤ t) := by
  intro due hdue
  obtain ⟨s, hs, after, near⟩ := h.window due hdue
  obtain ⟨no_earlier, within⟩ : Follows s t := h.next s hs t rfl
  -- a tick in time is less than half a turn behind the deadline, because `s` is before it
  have wide : 200 ≤ Instant.halfTurn := by decide
  apply Instant.reached_ofTime
  · omega
  · omega

/-! ## Runs of the reference -/

variable [OutputPin ρ]

/-- A chime on the given pin, which is driven low. -/
def onPin (pin : ρ) : Chime ρ :=
  ⟨OutputPin.setLow pin, .idle, 0⟩

/-- Turns the tone on for 100 milliseconds. -/
def startTone (c : Chime ρ) (t : Nat) : Chime ρ :=
  { c with pin := OutputPin.setHigh c.pin, stage := .tone (t + 100) }

/-- Turns the tone off for 200 milliseconds. -/
def startGap (c : Chime ρ) (t : Nat) : Chime ρ :=
  { c with pin := OutputPin.setLow c.pin, stage := .gap (t + 200) }

/-- Takes the beep that is over off the queue, and starts the next one. -/
def finishBeep (c : Chime ρ) (t : Nat) : Chime ρ :=
  let c := { c with pending := c.pending - 1 }
  if 0 < c.pending then c.startTone t else { c with stage := .idle }

/-- Lets time pass. A tone or a gap ends at the first tick at or after its deadline. -/
def tick (c : Chime ρ) (t : Nat) : Chime ρ :=
  match c.stage with
  | .idle => if 0 < c.pending then c.startTone t else c
  | .tone due => if due ≤ t then c.startGap t else c
  | .gap due => if due ≤ t then c.finishBeep t else c

def perform (c : Chime ρ) : Call Nat → Chime ρ
  | .ring => c.ring
  | .tick t => c.tick t

def performAll (c : Chime ρ) (calls : List (Call Nat)) : Chime ρ :=
  calls.foldl perform c

/-- **Everything that a tick can do**, with what can be heard of it. -/
inductive Tick (c : Chime ρ) (t : Nat) : Chime ρ → List Event → Prop where
  /-- The deadline is still to come. -/
  | waited (ahead : ∀ due ∈ c.stage.due?, t < due) : Tick c t c []
  | started (stage_eq : c.stage = .idle) : Tick c t (c.startTone t) [.toneStarted]
  | silenced (due : Nat) (stage_eq : c.stage = .tone due) (come : due ≤ t) :
      Tick c t (c.startGap t) [.toneEnded]
  | resumed (due : Nat) (stage_eq : c.stage = .gap due) (come : due ≤ t) :
      Tick c t ({ c with pending := c.pending - 1 }.startTone t) [.gapEnded, .toneStarted]
  | finished (due : Nat) (stage_eq : c.stage = .gap due) (come : due ≤ t) :
      Tick c t { c with pending := c.pending - 1, stage := .idle } [.gapEnded]

theorem tick_tick (c : Chime ρ) (t : Nat) :
    c.Tick t (c.tick t) (c.stage.wrapped.events (c.tick t).stage.wrapped) := by
  -- a tick that changes nothing has no events, so all that is left to show is why
  have still (ahead : ∀ due ∈ c.stage.due?, t < due) (same : c.tick t = c) :
      c.Tick t (c.tick t) (c.stage.wrapped.events (c.tick t).stage.wrapped) := by
    rw [same, Phase.events_self]
    exact .waited ahead
  cases stage_eq : c.stage with
  | idle =>
    rw [stage_eq] at still
    by_cases some_pending : 0 < c.pending
    · have step : c.tick t = c.startTone t := by
        rw [tick, stage_eq]
        exact if_pos some_pending
      rw [step]
      exact .started stage_eq
    · apply still nofun
      rw [tick, stage_eq]
      exact if_neg some_pending
  | tone due =>
    rw [stage_eq] at still
    by_cases come : due ≤ t
    · have step : c.tick t = c.startGap t := by
        rw [tick, stage_eq]
        exact if_pos come
      rw [step]
      exact .silenced due stage_eq come
    · refine still ?_ ?_
      · rintro _ ⟨⟩
        exact Nat.lt_of_not_le come
      · rw [tick, stage_eq]
        exact if_neg come
  | gap due =>
    rw [stage_eq] at still
    by_cases come : due ≤ t
    · have step : c.tick t = c.finishBeep t := by
        rw [tick, stage_eq]
        exact if_pos come
      rw [step]
      by_cases more : 0 < c.pending - 1
      · have next : c.finishBeep t = { c with pending := c.pending - 1 }.startTone t :=
          if_pos more
        rw [next]
        exact .resumed due stage_eq come
      · have finished : c.finishBeep t = { c with pending := c.pending - 1, stage := .idle } :=
          if_neg more
        rw [finished]
        exact .finished due stage_eq come
    · refine still ?_ ?_
      · rintro _ ⟨⟩
        exact Nat.lt_of_not_le come
      · rw [tick, stage_eq]
        exact if_neg come

/-! ## The beeper is the chime, wrapped -/

theorem wrapped_startTone (c : Chime ρ) (t : Nat) :
    c.wrapped.startTone (.ofTime t) = (c.startTone t).wrapped := by
  have due : Instant.ofTime t + Beeper.toneTime = .ofTime (t + 100) :=
    Instant.ofTime_add t Beeper.toneTime
  rw [Beeper.startTone, due]
  rfl

theorem wrapped_startGap (c : Chime ρ) (t : Nat) :
    c.wrapped.startGap (.ofTime t) = (c.startGap t).wrapped := by
  have due : Instant.ofTime t + Beeper.gapTime = .ofTime (t + 200) :=
    Instant.ofTime_add t Beeper.gapTime
  rw [Beeper.startGap, due]
  rfl

theorem wrapped_finishBeep (c : Chime ρ) (t : Nat) :
    c.wrapped.finishBeep (.ofTime t) = (c.finishBeep t).wrapped := by
  unfold finishBeep
  rw [apply_ite wrapped, ← wrapped_startTone]
  rfl

/-- **A tick that tells rightly whether the deadline has come** does to the beeper what it
does to the chime. -/
theorem wrapped_tick {c : Chime ρ} {t : Nat}
    (right : ∀ due ∈ c.stage.due?,
      Instant.reached (.ofTime t) (.ofTime due) = decide (due ≤ t)) :
    c.wrapped.tick (.ofTime t) = (c.tick t).wrapped := by
  -- the two machines branch alike, on the queue when idle and otherwise on the deadline
  obtain ⟨pin, stage, pending⟩ := c
  cases stage with
  | idle =>
    let c : Chime ρ := ⟨pin, .idle, pending⟩
    calc c.wrapped.tick (.ofTime t)
        = if 0 < c.pending then c.wrapped.startTone (.ofTime t) else c.wrapped := rfl
      _ = if 0 < c.pending then (c.startTone t).wrapped else c.wrapped := by
          rw [wrapped_startTone]
      _ = (c.tick t).wrapped := (apply_ite wrapped ..).symm
  | tone due =>
    let c : Chime ρ := ⟨pin, .tone due, pending⟩
    calc c.wrapped.tick (.ofTime t)
        = if Instant.reached (.ofTime t) (.ofTime due) = true then
            c.wrapped.startGap (.ofTime t) else c.wrapped := rfl
      _ = if due ≤ t then (c.startGap t).wrapped else c.wrapped := by
          simp only [right due rfl, decide_eq_true_eq, wrapped_startGap]
      _ = (c.tick t).wrapped := (apply_ite wrapped ..).symm
  | gap due =>
    let c : Chime ρ := ⟨pin, .gap due, pending⟩
    calc c.wrapped.tick (.ofTime t)
        = if Instant.reached (.ofTime t) (.ofTime due) = true then
            c.wrapped.finishBeep (.ofTime t) else c.wrapped := rfl
      _ = if due ≤ t then (c.finishBeep t).wrapped else c.wrapped := by
          simp only [right due rfl, decide_eq_true_eq, wrapped_finishBeep]
      _ = (c.tick t).wrapped := (apply_ite wrapped ..).symm

variable {c c' : Chime ρ} {t : Nat} {events : List Event}

/-- **The deadline lies in a window after the tick**: it is still ahead, and at most a gap
away. -/
theorem Tick.window {since : Option Nat} (tick : c.Tick t c' events)
    (window : ∀ due ∈ c.stage.due?, ∃ s ∈ since, s < due ∧ due ≤ s + 200)
    (since_le : ∀ s ∈ since, s ≤ t) : ∀ due ∈ c'.stage.due?, t < due ∧ due ≤ t + 200 := by
  intro due hdue
  cases tick with
  | waited ahead =>
    -- the deadline of an earlier tick is all the nearer now
    obtain ⟨s, hs, -, near⟩ := window due hdue
    have earlier : s ≤ t := since_le s hs
    exact ⟨ahead due hdue, by omega⟩
  | started stage_eq =>
    obtain rfl : t + 100 = due := Option.some.inj hdue
    exact ⟨by omega, by omega⟩
  | silenced due' stage_eq come =>
    obtain rfl : t + 200 = due := Option.some.inj hdue
    exact ⟨by omega, by omega⟩
  | resumed due' stage_eq come =>
    obtain rfl : t + 100 = due := Option.some.inj hdue
    exact ⟨by omega, by omega⟩
  | finished due' stage_eq come => exact absurd hdue nofun

namespace OnTime

variable {since : Option Nat} {calls : List (Call Nat)}

theorem onPin (pin : ρ) (timed : Beeper.WellTimed calls) : (onPin pin).OnTime none calls :=
  ⟨nofun, nofun, timed⟩

theorem tick (h : c.OnTime since (.tick t :: calls)) : (c.tick t).OnTime (some t) calls where
  window := by
    intro due hdue
    have since_le : ∀ s ∈ since, s ≤ t := fun s hs => (h.next s hs t rfl).1
    exact ⟨t, rfl, (c.tick_tick t).window h.window since_le due hdue⟩
  next := by
    rintro _ ⟨⟩
    exact (List.isChain_cons.1 h.timed).1
  timed := (List.isChain_cons.1 h.timed).2

/-- **The beeper is the chime with its deadline wrapped**, and so is its pin. -/
theorem wrapped_performAll (h : c.OnTime since calls) :
    c.wrapped.performAll (calls.map Call.shown) = (c.performAll calls).wrapped := by
  induction calls generalizing c since with
  | nil => rfl
  | cons call rest ih =>
    cases call with
    | ring =>
      calc c.wrapped.performAll ((Call.ring :: rest).map Call.shown)
          = c.wrapped.ring.performAll (rest.map Call.shown) := rfl
        _ = c.ring.wrapped.performAll (rest.map Call.shown) := by rw [wrapped_ring]
        _ = (c.performAll (.ring :: rest)).wrapped := ih h.ring
    | tick t =>
      calc c.wrapped.performAll ((Call.tick t :: rest).map Call.shown)
          = (c.wrapped.tick (.ofTime t)).performAll (rest.map Call.shown) := rfl
        _ = (c.tick t).wrapped.performAll (rest.map Call.shown) := by
            rw [wrapped_tick h.reached_due]
        _ = (c.performAll (.tick t :: rest)).wrapped := ih h.tick

end OnTime

/-! ## What is heard, and when -/

/-- A tick changes nothing, or it comes no earlier than the deadline. -/
theorem Tick.same_or_come (tick : c.Tick t c' events) :
    (c' = c ∧ events = []) ∨ ∀ due ∈ c.stage.due?, due ≤ t := by
  cases tick with
  | waited ahead => exact .inl ⟨rfl, rfl⟩
  | started stage_eq =>
    rw [stage_eq]
    exact .inr nofun
  | silenced due stage_eq come | resumed due stage_eq come | finished due stage_eq come =>
    rw [stage_eq]
    refine .inr ?_
    rintro _ ⟨⟩
    exact come

/-- A tone that starts is on for 100 milliseconds, and one that ends is off for 200. -/
theorem Tick.stage_eq (tick : c.Tick t c' events) :
    (.toneStarted ∈ events → c'.stage = .tone (t + 100)) ∧
      (.toneEnded ∈ events → c'.stage = .gap (t + 200)) := by
  cases tick with
  | waited ahead => exact ⟨nofun, nofun⟩
  | started stage_eq => exact ⟨fun _ => rfl, fun h => absurd h (by decide)⟩
  | silenced due stage_eq come => exact ⟨fun h => absurd h (by decide), fun _ => rfl⟩
  | resumed due stage_eq come => exact ⟨fun _ => rfl, fun h => absurd h (by decide)⟩
  | finished due stage_eq come => exact ⟨fun h => absurd h (by decide), nofun⟩

/-- Two events of one tick are those of a gap that ends and a tone that starts. -/
theorem Tick.spaced (tick : c.Tick t c' events) : (events.map (t, ·)).Pairwise Beeper.Spaced := by
  cases tick with
  | waited ahead => exact .nil
  | started stage_eq => exact List.pairwise_singleton ..
  | silenced due stage_eq come => exact List.pairwise_singleton ..
  | resumed due stage_eq come => exact List.pairwise_pair.2 ⟨nofun, nofun⟩
  | finished due stage_eq come => exact List.pairwise_singleton ..

/-- Nothing is heard before the first tick. -/
theorem time_le_of_mem_heardAt {b : Beeper ρ} {calls : List (Call Nat)}
    (timed : (t :: tickTimes calls).IsChain Follows) {e : Nat × Event}
    (heard : e ∈ b.heardAt calls) : t ≤ e.1 := by
  induction calls generalizing b t with
  | nil => exact absurd heard nofun
  | cons call rest ih =>
    cases call with
    | ring => exact ih timed heard
    | tick u =>
      obtain ⟨follows, timed⟩ : Follows t u ∧ (u :: tickTimes rest).IsChain Follows :=
        List.isChain_cons_cons.1 timed
      rcases List.mem_append.1 heard with now | later
      · obtain ⟨event, -, rfl⟩ := List.mem_map.1 now
        exact follows.1
      · exact Nat.le_trans follows.1 (ih timed later)

namespace OnTime

variable {since : Option Nat} {calls : List (Call Nat)}

/-- What is heard from a tick on, as the chime has it. -/
theorem heardAt_tick (h : c.OnTime since (.tick t :: calls)) :
    c.wrapped.heardAt (.tick t :: calls) =
      (c.stage.wrapped.events (c.tick t).stage.wrapped).map (t, ·) ++
        (c.tick t).wrapped.heardAt calls := by
  rw [Beeper.heardAt, Beeper.eventsOf, wrapped_tick h.reached_due]
  rfl

/-- **Nothing is heard before the deadline.** -/
theorem due_le (h : c.OnTime since calls) {e : Nat × Event} (heard : e ∈ c.wrapped.heardAt calls)
    {due : Nat} (hdue : due ∈ c.stage.due?) : due ≤ e.1 := by
  induction calls generalizing c since with
  | nil => exact absurd heard nofun
  | cons call rest ih =>
    cases call with
    | ring =>
      have heard : e ∈ c.wrapped.ring.heardAt rest := heard
      rw [wrapped_ring] at heard
      exact ih h.ring heard (by rw [stage_ring]; exact hdue)
    | tick t =>
      have next := h.tick
      rw [h.heardAt_tick] at heard
      rcases (c.tick_tick t).same_or_come with ⟨same, silent⟩ | come
      · rw [silent, same] at heard
        rw [same] at next
        exact ih next heard hdue
      · have come : due ≤ t := come due hdue
        rcases List.mem_append.1 heard with now | later
        · obtain ⟨event, -, rfl⟩ := List.mem_map.1 now
          exact come
        · exact Nat.le_trans come (time_le_of_mem_heardAt h.timed later)

/-- **Tones and gaps keep their length**, in what is heard from here on. -/
theorem pairwise_heardAt (h : c.OnTime since calls) :
    (c.wrapped.heardAt calls).Pairwise Beeper.Spaced := by
  induction calls generalizing c since with
  | nil => exact .nil
  | cons call rest ih =>
    cases call with
    | ring =>
      show (c.wrapped.ring.heardAt rest).Pairwise Beeper.Spaced
      rw [wrapped_ring]
      exact ih h.ring
    | tick t =>
      have tick := c.tick_tick t
      rw [h.heardAt_tick]
      refine List.pairwise_append.2 ⟨tick.spaced, ih h.tick, ?_⟩
      -- what was started by this tick has set the deadline that the rest waits for
      intro first now second later
      obtain ⟨event, member, rfl⟩ := List.mem_map.1 now
      refine ⟨?_, ?_⟩
      · rintro rfl -
        exact h.tick.due_le later (by rw [tick.stage_eq.1 member]; rfl)
      · rintro rfl -
        exact h.tick.due_le later (by rw [tick.stage_eq.2 member]; rfl)

end OnTime

end Chime

namespace Beeper

variable {ρ : Type} [OutputPin ρ]

/-- **Tones and gaps are timed in true time.** When time does not run backwards and ticks in
a row are less than half a turn of the clock apart, then after every call the beeper is the
chime with its deadline wrapped: it is in the same phase, has the same beeps in its queue
and has written the same to its pin. So no tone is shorter than 100 milliseconds and the
next one starts no earlier than 200 after it, wherever the clock wraps. -/
theorem tones_in_true_time (pin : ρ) {calls : List (Call Nat)} (timed : WellTimed calls) :
    (∀ before, before <+: calls →
      (onPin pin).performAll (before.map Call.shown) =
        ((Chime.onPin pin).performAll before).wrapped) ∧
      ((onPin pin).heardAt calls).Pairwise Spaced := by
  refine ⟨?_, ?_⟩
  · intro before start
    have timed : WellTimed before := timed.prefix (start.filterMap Call.time?)
    exact (Chime.OnTime.onPin pin timed).wrapped_performAll
  · exact (Chime.OnTime.onPin pin timed).pairwise_heardAt

/-- Two beeps on a clock that wraps during the first tone. The second tick is a millisecond
too early for the end of the tone and the fourth for the end of the gap; the last one is as
late as it may be. -/
theorem tones_across_the_wrap :
    let calls : List (Call Nat) :=
      [.ring, .ring, .tick 4294967200, .tick 4294967299, .tick 4294967300, .tick 4294967499,
        .tick 4294967500, .tick 6442451147]
    WellTimed calls ∧
      (onPin (⟨[]⟩ : PinTrace)).heardAt calls =
        [(4294967200, .toneStarted), (4294967300, .toneEnded), (4294967500, .gapEnded),
          (4294967500, .toneStarted), (6442451147, .toneEnded)] ∧
      ((onPin (⟨[]⟩ : PinTrace)).heardAt calls).Pairwise Spaced ∧
      (onPin (⟨[]⟩ : PinTrace)).performAll (calls.map Call.shown) =
        ((Chime.onPin ⟨[]⟩).performAll calls).wrapped := by
  intro calls
  have timed : WellTimed calls := by decide
  obtain ⟨same, spaced⟩ := tones_in_true_time (⟨[]⟩ : PinTrace) timed
  exact ⟨timed, by decide +kernel, spaced, same calls (List.prefix_refl calls)⟩

end Beeper

end SerialTerminal
