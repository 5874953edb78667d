/-
Caps lock over a run of the console.

Of everything that a turn works with, the decoder meets the keyboard host alone, and the
keyboard host meets the decoder alone. **So keyboard and host go through a run by themselves**,
one `Keyboard.turn` for each turn of the loop, and nothing that the host of the line sends, and
no key that is routed, comes between them.

A host that is watched is for the console the host inside it (`run_watching`), as it is with the
recorder around a link. What was said of one turn then holds of every run: caps lock is on after
an odd number of presses of its key, and the lamp that was set last is the one of the lock
(`caps_lock_and_lamp`).
-/
import SerialTerminal.Proofs.Console.Run
import SerialTerminal.Proofs.Keyboard.Lamps

set_option autoImplicit false

namespace SerialTerminal

variable {ℓ κ κ' β σ : Type} {cols rows : Nat}

/-! ## Other hosts -/

/-- A map between keyboard hosts that answer alike. -/
structure KeyboardHost.IsHom [KeyboardHost κ] [KeyboardHost κ'] (f : κ → κ') : Prop where
  nextReport : ∀ host, KeyboardHost.nextReport (f host) =
    (f (KeyboardHost.nextReport host).1, (KeyboardHost.nextReport host).2)
  setLeds : ∀ host leds, KeyboardHost.setLeds (f host) leds = f (KeyboardHost.setLeds host leds)

/-- The same devices with another keyboard host. -/
def Devices.withHost (d : Devices ℓ κ β σ) (host : κ') : Devices ℓ κ' β σ where
  link := d.link
  keyboard := host
  bell := d.bell
  surface := d.surface

def Devices.mapHost (f : κ → κ') (d : Devices ℓ κ β σ) : Devices ℓ κ' β σ :=
  d.withHost (f d.keyboard)

/-- The same devices with the keyboard host watched, after the given calls. -/
def Devices.watching (d : Devices ℓ κ β σ) (calls : List HostCall) :
    Devices ℓ (WatchedHost κ) β σ :=
  d.withHost ⟨d.keyboard, calls⟩

theorem WatchedHost.isHom_device [KeyboardHost κ] :
    KeyboardHost.IsHom (device : WatchedHost κ → κ) :=
  ⟨fun _ => rfl, fun _ _ => rfl⟩

namespace Console

/-! ## The keyboard's part of a turn -/

section Turn

variable [KeyboardHost κ]

theorem takeReport_host (c : Console cols rows) (now : Instant) (d : Devices ℓ κ β σ) :
    (c.takeReport now d).1.keyboard =
        c.keyboard.hear now (KeyboardHost.nextReport d.keyboard).2 ∧
      (c.takeReport now d).2.keyboard = (KeyboardHost.nextReport d.keyboard).1 := by
  unfold takeReport
  dsimp only
  cases (KeyboardHost.nextReport d.keyboard).2 with
  | none => exact ⟨rfl, rfl⟩
  | some report => exact ⟨rfl, rfl⟩

theorem updateLeds_host (c : Console cols rows) (d : Devices ℓ κ β σ) :
    (c.updateLeds d).1.keyboard = c.keyboard.takeLeds.1 ∧
      (c.updateLeds d).2.keyboard =
        c.keyboard.takeLeds.2.elim d.keyboard (KeyboardHost.setLeds d.keyboard) := by
  unfold updateLeds
  dsimp only
  cases c.keyboard.takeLeds.2 with
  | none => exact ⟨rfl, rfl⟩
  | some leds => exact ⟨rfl, rfl⟩

/-- **The keyboard part of a turn is a turn of the keyboard and its host.** -/
theorem pollKeyboard_host (c : Console cols rows) (now : Instant) (d : Devices ℓ κ β σ) :
    ((c.pollKeyboard now d).1.keyboard, (c.pollKeyboard now d).2.keyboard) =
      c.keyboard.turn now d.keyboard := by
  obtain ⟨heard, asked⟩ := c.takeReport_host now d
  obtain ⟨taken, lit⟩ := ((c.takeReport now d).1.repeatKeys now).updateLeds_host
    (c.takeReport now d).2
  have fired : ((c.takeReport now d).1.repeatKeys now).keyboard =
      ((c.takeReport now d).1.keyboard.fireRepeats now).1 := rfl
  rw [fired, heard] at taken lit
  rw [asked] at lit
  exact Prod.ext taken lit

theorem pollKeyboard_mapHost [KeyboardHost κ'] {f : κ → κ'} (hom : KeyboardHost.IsHom f)
    (c : Console cols rows) (now : Instant) (d : Devices ℓ κ β σ) :
    c.pollKeyboard now (d.mapHost f) =
      ((c.pollKeyboard now d).1, (c.pollKeyboard now d).2.mapHost f) := by
  have reported : c.takeReport now (d.mapHost f) =
      ((c.takeReport now d).1, (c.takeReport now d).2.mapHost f) := by
    simp only [takeReport, Devices.mapHost, Devices.withHost, hom.nextReport]
    cases (KeyboardHost.nextReport d.keyboard).2 <;> rfl
  have lit (c : Console cols rows) (d : Devices ℓ κ β σ) : c.updateLeds (d.mapHost f) =
      ((c.updateLeds d).1, (c.updateLeds d).2.mapHost f) := by
    simp only [updateLeds, Devices.mapHost, Devices.withHost]
    cases c.keyboard.takeLeds.2 with
    | none => rfl
    | some leds => simp only [hom.setLeds]
  rw [pollKeyboard, pollKeyboard, reported]
  exact lit _ _

end Turn

/-! ## The rest of a turn -/

section Rest

variable [SerialLink ℓ] [Bell β] [ConfigSurface σ cols rows]

/-- Routing a key does not look at the host. -/
theorem routeKey_mapHost (f : κ → κ') (s : Console cols rows × Devices ℓ κ β σ)
    (token : KeyToken) :
    routeKey (s.1, s.2.mapHost f) token =
      ((routeKey s token).1, (routeKey s token).2.mapHost f) := by
  obtain ⟨c, d⟩ := s
  simp only [routeKey, Devices.mapHost, Devices.withHost]
  rcases c.router.dispatch token c.settings
    (⟨c.terminal, c.tx, d.bell, d.surface⟩ : Endpoints β σ cols rows txSlots) with
    ⟨router, e, event⟩
  rcases event with _ | ⟨mode⟩ | ⟨settings⟩
  · rfl
  · rfl
  · rfl

theorem routeAll_mapHost (f : κ → κ') (s : Console cols rows × Devices ℓ κ β σ)
    (tokens : List KeyToken) :
    routeAll (s.1, s.2.mapHost f) tokens =
      ((routeAll s tokens).1, (routeAll s tokens).2.mapHost f) := by
  induction tokens generalizing s with
  | nil => rfl
  | cons token rest ih => rw [routeAll_cons, routeAll_cons, routeKey_mapHost, ih]

variable [KeyboardHost κ]

/-- **Decoder and host go through a turn by themselves.** -/
theorem poll_host (c : Console cols rows) (now : Instant) (d : Devices ℓ κ β σ) :
    ((c.poll now d).1.keyboard, (c.poll now d).2.keyboard) = c.keyboard.turn now d.keyboard := by
  have polled := pollKeyboard_host (c.interpretReceived d).1 now (c.interpretReceived d).2
  have routed : ((c.beforeTransmit now d).1.keyboard, (c.beforeTransmit now d).2.keyboard) =
      ((c.beforeRouting now d).1.keyboard, (c.beforeRouting now d).2.keyboard) := by
    obtain ⟨_, _, _, _, _, _, _, same⟩ := exists_routeAll ((c.beforeRouting now d).1.takeKeys.1,
      (c.beforeRouting now d).2) (c.beforeRouting now d).1.takeKeys.2
    rw [beforeTransmit, routeKeys_eq, same]
    rfl
  calc ((c.poll now d).1.keyboard, (c.poll now d).2.keyboard)
      = ((c.beforeTransmit now d).1.keyboard, (c.beforeTransmit now d).2.keyboard) := rfl
    _ = ((c.beforeRouting now d).1.keyboard, (c.beforeRouting now d).2.keyboard) := routed
    _ = c.keyboard.turn now d.keyboard := polled

variable [KeyboardHost κ'] {f : κ → κ'}

theorem stimulate_mapHost (hom : KeyboardHost.IsHom f) (s : Console cols rows × Devices ℓ κ β σ)
    (e : Stimulus) :
    stimulate (s.1, s.2.mapHost f) e = ((stimulate s e).1, (stimulate s e).2.mapHost f) := by
  cases e with
  | receive b => rfl
  | poll now =>
    have polled : s.1.beforeRouting now (s.2.mapHost f) =
        ((s.1.beforeRouting now s.2).1, (s.1.beforeRouting now s.2).2.mapHost f) :=
      pollKeyboard_mapHost hom (s.1.interpretReceived s.2).1 now (s.1.interpretReceived s.2).2
    have sending : s.1.beforeTransmit now (s.2.mapHost f) =
        ((s.1.beforeTransmit now s.2).1, (s.1.beforeTransmit now s.2).2.mapHost f) := by
      rw [beforeTransmit, polled]
      exact routeAll_mapHost f ((s.1.beforeRouting now s.2).1.takeKeys.1,
        (s.1.beforeRouting now s.2).2) _
    rw [stimulate, stimulate, poll_eq, poll_eq, sending]
    rfl

/-- **A console cannot tell keyboard hosts apart that answer alike.** -/
theorem run_mapHost (hom : KeyboardHost.IsHom f) (s : Console cols rows × Devices ℓ κ β σ)
    (stimuli : List Stimulus) :
    run (s.1, s.2.mapHost f) stimuli = ((run s stimuli).1, (run s stimuli).2.mapHost f) := by
  induction stimuli generalizing s with
  | nil => rfl
  | cons e rest ih => rw [run_cons, run_cons, stimulate_mapHost hom, ih]

end Rest

/-! ## The calls of a run -/

section Watched

variable [SerialLink ℓ] [KeyboardHost κ] [Bell β] [ConfigSurface σ cols rows]
variable (s : Console cols rows × Devices ℓ κ β σ)

/-- The calls that are made to the keyboard host during a run. -/
def hostCalls (stimuli : List Stimulus) : List HostCall :=
  (run (s.1, s.2.watching []) stimuli).2.keyboard.log

/-- **A console cannot tell that its keyboard host is watched.** -/
theorem run_watching (stimuli : List Stimulus) :
    run (s.1, s.2.watching []) stimuli =
      ((run s stimuli).1, (run s stimuli).2.watching (hostCalls s stimuli)) := by
  have bare : run s stimuli =
      ((run (s.1, s.2.watching []) stimuli).1,
        (run (s.1, s.2.watching []) stimuli).2.mapHost WatchedHost.device) :=
    run_mapHost WatchedHost.isHom_device (s.1, s.2.watching []) stimuli
  rw [bare]
  rfl

/-- A byte from the line makes no call. -/
theorem hostCalls_receive (stimuli : List Stimulus) (b : UInt8) :
    (run s (stimuli ++ [.receive b])).1.keyboard = (run s stimuli).1.keyboard ∧
      hostCalls s (stimuli ++ [.receive b]) = hostCalls s stimuli := by
  unfold hostCalls run
  rw [List.foldl_append, List.foldl_append]
  exact ⟨rfl, rfl⟩

/-- A turn of the loop is a turn of the keyboard and its host. -/
theorem hostCalls_poll (stimuli : List Stimulus) (now : Instant) :
    let after := (run s stimuli).1.keyboard.turn now
      (⟨(run s stimuli).2.keyboard, hostCalls s stimuli⟩ : WatchedHost κ)
    (run s (stimuli ++ [.poll now])).1.keyboard = after.1 ∧
      hostCalls s (stimuli ++ [.poll now]) = after.2.log := by
  intro after
  have watched : run (s.1, s.2.watching []) (stimuli ++ [.poll now]) =
      (run s stimuli).1.poll now ((run s stimuli).2.watching (hostCalls s stimuli)) := by
    have before := run_watching s stimuli
    unfold run at before ⊢
    rw [List.foldl_append, before]
    rfl
  have turned := poll_host (run s stimuli).1 now ((run s stimuli).2.watching (hostCalls s stimuli))
  obtain ⟨decoder, host⟩ := Prod.mk.inj turned
  rw [← watched] at decoder host
  refine ⟨?_, congrArg WatchedHost.log host⟩
  rw [run_watching] at decoder
  exact decoder

end Watched

/-! ## Every run -/

section Runs

variable [SerialLink ℓ] [KeyboardHost κ] [Bell β]

open Keyboard HostCall

/-- The decoder stays in step with the calls, and from the first turn on the lamps are those of
the lock. -/
theorem inStep_run (cols rows : Nat) [ConfigSurface σ cols rows] (settings : Settings)
    (layout : Layout) (d : Devices ℓ κ β σ) (stimuli : List Stimulus) :
    let s := started cols rows settings layout d
    InStep (run s stimuli).1.keyboard (hostCalls s stimuli) ∧
      ((∃ now, Stimulus.poll now ∈ stimuli) → (lamps (hostCalls s stimuli)).getLast? =
        some (lampsFor (run s stimuli).1.keyboard.capsLock)) ∧
      ((∀ now, Stimulus.poll now ∉ stimuli) → hostCalls s stimuli = []) := by
  intro s
  induction stimuli using List.reverseRecOn with
  | nil => exact ⟨inStep_create layout, nofun, fun _ => rfl⟩
  | append_singleton stimuli e ih =>
    obtain ⟨step, lit, fresh⟩ := ih
    cases e with
    | receive b =>
      obtain ⟨decoder, calls⟩ := hostCalls_receive s stimuli b
      simp only [decoder, calls, List.mem_append, List.mem_singleton, reduceCtorEq, or_false]
      exact ⟨step, lit, fresh⟩
    | poll now =>
      obtain ⟨decoder, calls⟩ := hostCalls_poll s stimuli now
      obtain ⟨answer, -, last, step'⟩ := step.turn now (run s stimuli).2.keyboard
      rw [← decoder, ← calls] at step' last
      refine ⟨step', fun _ => last, fun none => ?_⟩
      exact absurd (List.mem_append_right stimuli (List.mem_singleton.2 rfl)) (none now)

/-- **Caps lock and its lamp stay in step.** A console is started with any keyboard host, and
then bytes arrive and turns are made in any order.

Caps lock is on exactly when the reports that the host has handed out, those left aside that say
nothing, show its key pressed an odd number of times.

Once there has been a turn, the lamps that were set last are the lamp of caps lock alone if it is
on, and none if it is off. They are set in turns only, after the one report that the turn asks
for, at most once in a turn; in the first turn they are set, and later never as they were set
last. -/
theorem caps_lock_and_lamp (cols rows : Nat) [ConfigSurface σ cols rows] (settings : Settings)
    (layout : Layout) (d : Devices ℓ κ β σ) (stimuli : List Stimulus) :
    let s := started cols rows settings layout d
    let calls := hostCalls s stimuli
    let on := (run s stimuli).1.keyboard.capsLock
    (on = true ↔ pressCount KeyReport.capsLockKey .released (said calls) % 2 = 1) ∧
    ((∃ now, Stimulus.poll now ∈ stimuli) →
      (lamps calls).getLast? = some (if on = true then 0x02 else 0x00)) ∧
    (∀ b, hostCalls s (stimuli ++ [.receive b]) = calls) ∧
    ∀ now, ∃ answer, ∃ leds? : Option UInt8,
      hostCalls s (stimuli ++ [.poll now]) = calls ++ .asked answer :: leds?.toList.map .lit ∧
      ((∀ earlier, Stimulus.poll earlier ∉ stimuli) → leds?.isSome = true) ∧
      ∀ leds, leds? = some leds → (lamps calls).getLast? ≠ some leds := by
  intro s calls on
  obtain ⟨step, lit, fresh⟩ := inStep_run cols rows settings layout d stimuli
  refine ⟨?_, lit, fun b => (hostCalls_receive s stimuli b).2, fun now => ?_⟩
  · rw [show on = _ from step.capsLock_eq, beq_iff_eq]
  · obtain ⟨decoder, calls'⟩ := hostCalls_poll s stimuli now
    obtain ⟨answer, log, -, -⟩ := step.turn now (run s stimuli).2.keyboard
    refine ⟨answer, _, calls'.trans log, ?_, ?_⟩
    · intro first
      rw [fresh first, lampsToSet_nil]
      rfl
    · intro leds set
      exact lampsToSet_ne set

end Runs

/-- The key is pressed, and held across a rollover report that lists it too; it is pressed a
second time and a third time, and then the host has no more to say. Bytes arrive between the
turns. -/
theorem caps_lock_and_lamp_across_rollover :
    let pressed : KeyReport := .ofKeys {} [0x39]
    let rolled : KeyReport := .ofKeys {} [0x01, 0x39]
    let d : Devices OpenLink KeyScript Bell.Silent BaudEditor :=
      ⟨⟨⟩, ⟨[pressed, rolled, pressed, .released, pressed, .released, pressed]⟩, ⟨⟩, ⟨⟩⟩
    let s := started 4 3 {} .us d
    let stimuli : List Stimulus := [.poll 0, .receive 0x41, .poll 10, .poll 20, .poll 30, .poll 40,
      .receive 0x1B, .poll 50, .poll 60]
    let calls := hostCalls s stimuli
    HostCall.lamps calls = [0x02, 0x00, 0x02] ∧ HostCall.said calls =
        [pressed, pressed, .released, pressed, .released, pressed] ∧
      (run s stimuli).1.keyboard.capsLock = true ∧
      (HostCall.lamps calls).getLast? = some 0x02 ∧
      hostCalls s (stimuli ++ [.poll 70]) = calls ++ [.asked none] := by
  intro pressed rolled d s stimuli calls
  obtain ⟨odd, lit, -, -⟩ := caps_lock_and_lamp 4 3 {} .us d stimuli
  have on := odd.2 (by decide +kernel)
  have last := lit ⟨0, by decide⟩
  rw [if_pos on] at last
  refine ⟨by decide +kernel, by decide +kernel, ?_, ?_, by decide +kernel⟩
  · dsimp only [s]
    exact on
  · dsimp only [calls, s]
    exact last

end Console

end SerialTerminal
