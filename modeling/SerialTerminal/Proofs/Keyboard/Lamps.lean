/-
Caps lock and its lamp.

Four things are remembered of the caps lock key: the last report, in which it is down or not,
whether the lock is on, the lamps as they should be, and the lamps as they were last sent. They
are changed at different moments, and a report that says nothing may come between any two of
them. **What they are is said by the calls that were made to the keyboard host**: the reports
that it handed out and the lamps that were set (`InStep`).

So the lock is on after an odd number of presses, the lamps are those of the lock, and what was
sent is the last that was sent. A turn asks for one report, and then sets the lamps if they are
not as they were last set, which the first time they are not.
-/
import SerialTerminal.Proofs.Keyboard.Held

set_option autoImplicit false

namespace SerialTerminal

/-! ## A host that is watched -/

/-- A call made to a keyboard host. -/
inductive HostCall where
  /-- A report was asked for, and this was the answer. -/
  | asked (answer : Option KeyReport)
  /-- The lamps were set. -/
  | lit (leds : UInt8)
  deriving DecidableEq

namespace HostCall

/-- The report that was handed out, if it says something. -/
def said? : HostCall → Option KeyReport
  | asked answer => answer.filter fun r => !r.isRollover
  | lit _ => none

/-- The lamps that were set. -/
def lit? : HostCall → Option UInt8
  | asked _ => none
  | lit leds => some leds

/-- The reports that were handed out and say something, in their order. -/
def said (calls : List HostCall) : List KeyReport :=
  calls.filterMap said?

/-- The lamps as they were set, one time after the other. -/
def lamps (calls : List HostCall) : List UInt8 :=
  calls.filterMap lit?

@[simp] theorem said_asked (answer : Option KeyReport) :
    said [asked answer] = (answer.filter fun r => !r.isRollover).toList := by
  cases h : answer.filter fun r => !r.isRollover <;> simp [said, said?, h]

@[simp] theorem said_lit (leds : UInt8) : said [lit leds] = [] := rfl

@[simp] theorem lamps_asked (answer : Option KeyReport) : lamps [asked answer] = [] := rfl

@[simp] theorem lamps_lit (leds : UInt8) : lamps [lit leds] = [leds] := rfl

@[simp] theorem said_append (front back : List HostCall) :
    said (front ++ back) = said front ++ said back :=
  List.filterMap_append ..

@[simp] theorem lamps_append (front back : List HostCall) :
    lamps (front ++ back) = lamps front ++ lamps back :=
  List.filterMap_append ..

end HostCall

/-- A keyboard host and the calls that were made to it so far. -/
structure WatchedHost (κ : Type) where
  device : κ
  /-- Oldest first. -/
  log : List HostCall

instance {κ : Type} [KeyboardHost κ] : KeyboardHost (WatchedHost κ) where
  nextReport w :=
    let asked := KeyboardHost.nextReport w.device
    (⟨asked.1, w.log ++ [.asked asked.2]⟩, asked.2)
  setLeds w leds := ⟨KeyboardHost.setLeds w.device leds, w.log ++ [.lit leds]⟩

namespace Keyboard

/-! ## A turn -/

/-- The keyboard after the host has answered. -/
def hear (k : Keyboard) (now : Instant) (answer : Option KeyReport) : Keyboard :=
  answer.elim k fun r => (k.report r now).1

/-- The keyboard and its host after a turn: a report is asked for, repeats are fired, and the
lamps are set if they changed. -/
def turn {κ : Type} [KeyboardHost κ] (k : Keyboard) (now : Instant) (host : κ) : Keyboard × κ :=
  let asked := KeyboardHost.nextReport host
  let taken := ((k.hear now asked.2).fireRepeats now).1.takeLeds
  (taken.1, taken.2.elim asked.1 (KeyboardHost.setLeds asked.1))

/-! ## In step with the host -/

/-- The lamps of a keyboard on which caps lock is on or off. -/
def lampsFor (capsLock : Bool) : UInt8 :=
  if capsLock then 0x02 else 0x00

/-- What a keyboard remembers of caps lock is what the calls to its host say. -/
structure InStep (k : Keyboard) (calls : List HostCall) : Prop where
  previous_eq : k.previous = (HostCall.said calls).getLast?.getD .released
  capsLock_eq : k.capsLock =
    (pressCount KeyReport.capsLockKey .released (HostCall.said calls) % 2 == 1)
  leds_eq : k.leds = lampsFor k.capsLock
  sentLeds_eq : k.sentLeds = (HostCall.lamps calls).getLast?

variable {k : Keyboard} {calls : List HostCall}

theorem inStep_create (layout : Layout) : InStep (create layout) [] :=
  ⟨rfl, rfl, rfl, rfl⟩

/-- A press turns the lock around and the lamp with it. -/
theorem ledsAfter_eq (lit : k.leds = lampsFor k.capsLock) (r : KeyReport) :
    k.ledsAfter r = lampsFor (k.capsLockAfter r) := by
  unfold ledsAfter capsLockAfter
  rw [lit]
  cases k.pressesCapsLock r <;> cases k.capsLock <;> decide

/-- A call that says nothing about keys or lamps leaves what is remembered of them. -/
theorem InStep.of_silent (h : InStep k calls) {call : HostCall} (said : HostCall.said [call] = [])
    (lamps : HostCall.lamps [call] = []) : InStep k (calls ++ [call]) := by
  refine ⟨?_, ?_, h.leds_eq, ?_⟩
  · rw [HostCall.said_append, said, List.append_nil, h.previous_eq]
  · rw [HostCall.said_append, said, List.append_nil, h.capsLock_eq]
  · rw [HostCall.lamps_append, lamps, List.append_nil, h.sentLeds_eq]

/-- A report that says something takes the place of the one before. -/
theorem InStep.report (h : InStep k calls) {r : KeyReport} (speaks : r.isRollover = false)
    (now : Instant) : InStep (k.report r now).1 (calls ++ [.asked (some r)]) := by
  have said : HostCall.said (calls ++ [.asked (some r)]) = HostCall.said calls ++ [r] := by
    simp [speaks]
  simp only [Keyboard.report, speaks, Bool.false_eq_true, if_false]
  refine ⟨?_, ?_, ledsAfter_eq h.leds_eq r, ?_⟩
  · rw [said, List.getLast?_concat, Option.getD_some]
  · rw [said, odd_pressCount_append_singleton, ← h.capsLock_eq, ← h.previous_eq]
    rfl
  · rw [HostCall.lamps_append, HostCall.lamps_asked, List.append_nil]
    exact h.sentLeds_eq

theorem InStep.hear (h : InStep k calls) (now : Instant) (answer : Option KeyReport) :
    InStep (k.hear now answer) (calls ++ [.asked answer]) := by
  cases answer with
  | none => exact h.of_silent rfl rfl
  | some r =>
    cases rolled : r.isRollover with
    | false => exact h.report rolled now
    | true =>
      have same : k.hear now (some r) = k := by
        simp [Keyboard.hear, Keyboard.report, rolled]
      rw [same]
      exact h.of_silent (by simp [rolled]) rfl

theorem InStep.fireRepeats (h : InStep k calls) (now : Instant) :
    InStep (k.fireRepeats now).1 calls :=
  ⟨h.previous_eq, h.capsLock_eq, h.leds_eq, h.sentLeds_eq⟩

/-- The lamps that are to be set when caps lock is on or off, after the calls so far. -/
def lampsToSet (capsLock : Bool) (calls : List HostCall) : Option UInt8 :=
  if (HostCall.lamps calls).getLast? = some (lampsFor capsLock) then none
  else some (lampsFor capsLock)

/-- The first time they are set in any case. -/
theorem lampsToSet_nil (capsLock : Bool) : lampsToSet capsLock [] = some (lampsFor capsLock) := rfl

/-- They are never set as they were set last. -/
theorem lampsToSet_ne {capsLock : Bool} {leds : UInt8}
    (set : lampsToSet capsLock calls = some leds) :
    (HostCall.lamps calls).getLast? ≠ some leds := by
  unfold lampsToSet at set
  split at set
  next => exact absurd set nofun
  next other =>
    rw [← Option.some.inj set]
    exact other

theorem InStep.takeLeds_eq (h : InStep k calls) :
    k.takeLeds =
      ({ k with sentLeds := some (lampsFor k.capsLock) }, lampsToSet k.capsLock calls) := by
  unfold takeLeds lampsToSet
  rw [h.leds_eq, ← h.sentLeds_eq]
  by_cases same : k.sentLeds = some (lampsFor k.capsLock)
  · rw [if_pos same, if_pos same, ← same, ← h.leds_eq]
  · rw [if_neg same, if_neg same]

/-- Once they have been set, the last lamps are those of the lock. -/
theorem getLast?_lamps_lampsToSet (capsLock : Bool) (calls : List HostCall) :
    (HostCall.lamps (calls ++ (lampsToSet capsLock calls).toList.map .lit)).getLast? =
      some (lampsFor capsLock) := by
  unfold lampsToSet
  by_cases same : (HostCall.lamps calls).getLast? = some (lampsFor capsLock)
  · rw [if_pos same]
    simpa using same
  · rw [if_neg same]
    simp

theorem InStep.takeLeds (h : InStep k calls) :
    InStep k.takeLeds.1 (calls ++ (lampsToSet k.capsLock calls).toList.map .lit) := by
  have unsaid : HostCall.said ((lampsToSet k.capsLock calls).toList.map .lit) = [] := by
    cases lampsToSet k.capsLock calls <;> rfl
  rw [h.takeLeds_eq]
  refine ⟨?_, ?_, h.leds_eq, (getLast?_lamps_lampsToSet k.capsLock calls).symm⟩
  · rw [HostCall.said_append, unsaid, List.append_nil]
    exact h.previous_eq
  · rw [HostCall.said_append, unsaid, List.append_nil]
    exact h.capsLock_eq

/-! ## A turn with a host that is watched -/

section Turn

variable {κ : Type} [KeyboardHost κ] (now : Instant) (host : κ)

theorem turn_watched (k : Keyboard) (calls : List HostCall) :
    let answer := (KeyboardHost.nextReport host).2
    let fired := ((k.hear now answer).fireRepeats now).1
    k.turn now (⟨host, calls⟩ : WatchedHost κ) =
      (fired.takeLeds.1,
        ⟨(k.turn now host).2,
          calls ++ [.asked answer] ++ fired.takeLeds.2.toList.map .lit⟩) := by
  intro answer fired
  have bare : k.turn now host = (fired.takeLeds.1,
      fired.takeLeds.2.elim (KeyboardHost.nextReport host).1
        (KeyboardHost.setLeds (KeyboardHost.nextReport host).1)) := rfl
  have watched : k.turn now (⟨host, calls⟩ : WatchedHost κ) = (fired.takeLeds.1,
      fired.takeLeds.2.elim ⟨(KeyboardHost.nextReport host).1, calls ++ [.asked answer]⟩
        (KeyboardHost.setLeds ⟨(KeyboardHost.nextReport host).1, calls ++ [.asked answer]⟩)) := rfl
  rw [watched, bare]
  cases fired.takeLeds.2 with
  | none => simp
  | some leds => rfl

/-- **A turn asks once, and then sets the lamps if they are not as they were last set.** What is
remembered stays in step. -/
theorem InStep.turn (h : InStep k calls) :
    let after := k.turn now (⟨host, calls⟩ : WatchedHost κ)
    ∃ answer,
      after.2.log = calls ++ .asked answer :: (lampsToSet after.1.capsLock calls).toList.map .lit ∧
      (HostCall.lamps after.2.log).getLast? = some (lampsFor after.1.capsLock) ∧
      InStep after.1 after.2.log := by
  intro after
  let answer := (KeyboardHost.nextReport host).2
  let fired := ((k.hear now answer).fireRepeats now).1
  have heard : InStep fired (calls ++ [.asked answer]) := (h.hear now answer).fireRepeats now
  have capsLock : fired.takeLeds.1.capsLock = fired.capsLock := by
    rw [heard.takeLeds_eq]
  have toSet : lampsToSet fired.capsLock (calls ++ [.asked answer]) =
      lampsToSet fired.capsLock calls := by
    simp [lampsToSet]
  have log : calls ++ [.asked answer] ++ fired.takeLeds.2.toList.map .lit =
      calls ++ .asked answer :: (lampsToSet fired.capsLock calls).toList.map .lit := by
    rw [heard.takeLeds_eq, toSet, List.append_assoc, List.singleton_append]
  have watched : after = (fired.takeLeds.1, ⟨(k.turn now host).2,
      calls ++ [.asked answer] ++ fired.takeLeds.2.toList.map .lit⟩) :=
    turn_watched now host k calls
  rw [watched]
  dsimp only
  rw [capsLock]
  refine ⟨answer, log, ?_, ?_⟩
  · rw [heard.takeLeds_eq]
    exact getLast?_lamps_lampsToSet fired.capsLock _
  · have kept := heard.takeLeds
    rw [heard.takeLeds_eq] at kept ⊢
    exact kept

end Turn

end Keyboard

end SerialTerminal
