/-
Received bytes, from the line to the screen.

A byte waits in the receive ring until a turn of the loop comes to it. A turn interprets a
batch, and the rest of the turn belongs to the keyboard and to the transmitter. **As long as
no command is typed nothing of that can be seen**: the console is a terminal that was sent
one stream of bytes, those that the ring has taken (`received_as_one_stream`).

Two bookkeeping lists say what that means, the bytes taken by the ring and the bytes
interpreted so far. That the first is the second with the contents of the ring behind it
is the first half of the invariant. The other half is that terminal and bell are where one
call of `Terminal.print` would have left them; a batch may end inside an escape sequence,
since the parser is part of the terminal. What is typed goes to the transmit ring alone
(`routeKey_typed`), so one lemma describes the whole turn (`poll_typed`).

A bell has no answers, so how often it is rung is counted by an instrument that is put
around it (`Bell.Counted`, `Console.rung`).
-/
import SerialTerminal.Proofs.Console.Session

set_option autoImplicit false

namespace SerialTerminal

/-! ## Counting rings -/

namespace Bell

/-- A bell and the number of its rings. -/
structure Counted (β : Type) where
  bell : β
  rings : Nat

variable {β : Type} [Bell β]

instance : Bell (Counted β) where
  ring c := ⟨Bell.ring c.bell, c.rings + 1⟩
  tick c now := ⟨Bell.tick c.bell now, c.rings⟩

namespace Counted

theorem isHom_bell : IsHom (bell : Counted β → β) :=
  ⟨fun _ => rfl, fun _ _ => rfl⟩

def tally (c : Counted β) : Tally :=
  ⟨c.rings⟩

theorem isHom_tally : IsHom (tally : Counted β → Tally) :=
  ⟨fun _ => rfl, fun _ _ => rfl⟩

def add (n : Nat) (c : Counted β) : Counted β :=
  ⟨c.bell, n + c.rings⟩

theorem isHom_add (n : Nat) : IsHom (add n : Counted β → Counted β) :=
  ⟨fun _ => rfl, fun _ _ => rfl⟩

end Counted

end Bell

/-- The same devices with the rings counted, from `n` on. -/
def Devices.counting {ℓ κ β σ : Type} (d : Devices ℓ κ β σ) (n : Nat) :
    Devices ℓ κ (Bell.Counted β) σ :=
  d.map id (⟨·, n⟩) id

namespace Console

variable {ℓ κ β σ : Type} {cols rows : Nat}

section Rings

variable [SerialLink ℓ] [KeyboardHost κ] [Bell β] [ConfigSurface σ cols rows]

/-- How often the bell is rung during a run. -/
def rung (s : Console cols rows × Devices ℓ κ β σ) (stimuli : List Stimulus) : Nat :=
  (run (s.1, s.2.counting 0) stimuli).2.bell.rings

/-- **A console cannot tell a counted bell from the bell inside it.** -/
theorem run_counting (s : Console cols rows × Devices ℓ κ β σ) (stimuli : List Stimulus)
    (n : Nat) :
    run (s.1, s.2.counting n) stimuli =
      ((run s stimuli).1, (run s stimuli).2.counting (n + rung s stimuli)) := by
  have uncounted : Devices.IsHom cols rows (id : ℓ → ℓ) (Bell.Counted.bell : _ → β)
      (id : σ → σ) := ⟨SerialLink.isHom_id, Bell.Counted.isHom_bell, ConfigSurface.isHom_id⟩
  have added : Devices.IsHom cols rows (id : ℓ → ℓ) (Bell.Counted.add n : _ → Bell.Counted β)
      (id : σ → σ) := ⟨SerialLink.isHom_id, Bell.Counted.isHom_add n, ConfigSurface.isHom_id⟩
  have bare : run s stimuli = ((run (s.1, s.2.counting 0) stimuli).1,
      (run (s.1, s.2.counting 0) stimuli).2.map id Bell.Counted.bell id) :=
    run_map uncounted (s.1, s.2.counting 0) stimuli
  rw [bare]
  exact run_map added (s.1, s.2.counting 0) stimuli

theorem rung_cons (s : Console cols rows × Devices ℓ κ β σ) (e : Stimulus)
    (rest : List Stimulus) : rung s (e :: rest) = rung s [e] + rung (stimulate s e) rest := by
  have first := run_counting s [e] 0
  rw [run_cons, run_nil, Nat.zero_add] at first
  rw [rung, run_cons, first]
  exact congrArg (fun out => out.2.bell.rings) (run_counting (stimulate s e) rest (rung s [e]))

end Rings

/-! ## Bookkeeping -/

/-- What the next turn interprets. -/
def batch (c : Console cols rows) : List UInt8 :=
  (c.rx.drain rxBatch).2

theorem length_batch (c : Console cols rows) : c.batch.length = min rxBatch c.rx.size := by
  rw [batch, (c.rx.drain_eq rxBatch).1, List.length_take, Ring.length_toList]

/-- A byte waits behind the others, if it finds room. -/
theorem toList_rx_receive (c : Console cols rows) (b : UInt8) :
    (c.receive b).1.rx.toList = c.rx.toList ++ if (c.receive b).2 then [b] else [] := by
  change (c.rx.push b).1.toList = _ ++ if (c.rx.push b).2 then [b] else []
  rw [Ring.toList_push, Ring.snd_push]
  by_cases room : c.rx.toList.length < rxSlots - 1
  · rw [if_pos room, if_pos (decide_eq_true room)]
  · rw [if_neg room, if_neg (by simpa using room), List.append_nil]

/-- The terminal of a console that has just been started. -/
def newTerminal (cols rows : Nat) (settings : Settings) : Terminal cols rows :=
  (Terminal.create cols rows settings).banner.drawStatus .online settings.serial

section Lists

variable [SerialLink ℓ] [KeyboardHost κ] [Bell β] [ConfigSurface σ cols rows]

/-- The received bytes that found room in the ring. -/
def accepted (s : Console cols rows × Devices ℓ κ β σ) : List Stimulus → List UInt8
  | [] => []
  | .receive b :: rest =>
    (if (s.1.receive b).2 then [b] else []) ++ accepted (stimulate s (.receive b)) rest
  | .poll now :: rest => accepted (stimulate s (.poll now)) rest

/-- The bytes that the turns have interpreted. -/
def interpreted (s : Console cols rows × Devices ℓ κ β σ) : List Stimulus → List UInt8
  | [] => []
  | .receive b :: rest => interpreted (stimulate s (.receive b)) rest
  | .poll now :: rest => s.1.batch ++ interpreted (stimulate s (.poll now)) rest

theorem interpreted_append (s : Console cols rows × Devices ℓ κ β σ) (as bs : List Stimulus) :
    interpreted s (as ++ bs) = interpreted s as ++ interpreted (run s as) bs := by
  induction as generalizing s with
  | nil => rfl
  | cons e rest ih =>
    cases e with
    | receive b => exact ih (stimulate s (.receive b))
    | poll now =>
      rw [List.cons_append, interpreted, ih, interpreted, List.append_assoc]
      rfl

end Lists

/-! ## A turn without commands -/

section Turn

variable [SerialLink ℓ] [Bell β] [ConfigSurface σ cols rows]

/-- In the online mode a key that is no command reaches the transmit ring and nothing
else. -/
theorem routeKey_typed (c : Console cols rows) (d : Devices ℓ κ β σ) (token : KeyToken)
    (online : c.router.mode = .online) (typed : token.isAlt = false) :
    routeKey (c, d) token = ({ c with tx := c.tx.pushAll token.bytes }, d) := by
  have routed := c.router.routed_dispatch token c.settings
    (⟨c.terminal, c.tx, d.bell, d.surface⟩ : Endpoints β σ cols rows txSlots)
  unfold routeKey
  dsimp only
  generalize c.router.dispatch token c.settings
    (⟨c.terminal, c.tx, d.bell, d.surface⟩ : Endpoints β σ cols rows txSlots) = out at routed ⊢
  cases routed with
  | sent => rfl
  | opened | toLoopback | toHost | ignored => cases typed
  | echoed _ _ mode_eq | edited _ _ mode_eq | finished _ _ mode_eq =>
    cases online.symm.trans mode_eq

theorem routeAll_typed (c : Console cols rows) (d : Devices ℓ κ β σ) (tokens : List KeyToken)
    (online : c.router.mode = .online) (typed : ∀ token ∈ tokens, token.isAlt = false) :
    ∃ tx, routeAll (c, d) tokens = ({ c with tx }, d) := by
  induction tokens generalizing c with
  | nil => exact ⟨c.tx, rfl⟩
  | cons token rest ih =>
    obtain ⟨first, later⟩ := List.forall_mem_cons.1 typed
    obtain ⟨tx, routed⟩ := ih { c with tx := c.tx.pushAll token.bytes } online later
    refine ⟨tx, ?_⟩
    rw [routeAll_cons, routeKey_typed c d token online first]
    exact routed

theorem token_keyMoments (s : Console cols rows × Devices ℓ κ β σ) (tokens : List KeyToken) :
    (keyMoments s tokens).map KeyMoment.token = tokens := by
  induction tokens generalizing s with
  | nil => rfl
  | cons token rest ih =>
    rw [keyMoments, List.map_cons, ih]
    rfl

variable [KeyboardHost κ]

/-- **A turn whose keys reach the transmit ring at most**: a batch is interpreted, and what is
behind the keyboard and the transmitter is another matter. -/
theorem poll_of_routed (c : Console cols rows) (now : Instant) (d : Devices ℓ κ β σ)
    (routed : ∃ tx, (c.beforeRouting now d).1.routeKeys (c.beforeRouting now d).2 =
      ({ (c.beforeRouting now d).1.takeKeys.1 with tx }, (c.beforeRouting now d).2)) :
    ∃ keyboard keys tx link attached, c.poll now d =
      ({ c with
          terminal := (c.terminal.print c.batch d.bell).1
          rx := (c.rx.drain rxBatch).1
          keyboard, keys, tx },
        { d with
          link
          keyboard := attached
          bell := Bell.tick (c.terminal.print c.batch d.bell).2 now }) := by
  obtain ⟨keyboard, keys, attached, same⟩ :=
    (c.interpretReceived d).1.exists_pollKeyboard now d.keyboard
  have before : c.beforeRouting now d =
      ({ (c.interpretReceived d).1 with keyboard, keys },
        { (c.interpretReceived d).2 with keyboard := attached }) := same _ rfl
  obtain ⟨tx, routed⟩ := routed
  rw [poll_eq, beforeTransmit, routed, before]
  exact ⟨_, _, _, _, _, rfl⟩

/-- Such is a turn in which no command is typed. -/
theorem poll_typed (c : Console cols rows) (now : Instant) (d : Devices ℓ κ β σ)
    (online : c.router.mode = .online)
    (typed : ∀ token ∈ (c.beforeRouting now d).1.takeKeys.2, token.isAlt = false) :
    ∃ keyboard keys tx link attached, c.poll now d =
      ({ c with
          terminal := (c.terminal.print c.batch d.bell).1
          rx := (c.rx.drain rxBatch).1
          keyboard, keys, tx },
        { d with
          link
          keyboard := attached
          bell := Bell.tick (c.terminal.print c.batch d.bell).2 now }) := by
  apply c.poll_of_routed now d
  obtain ⟨keyboard, keys, same⟩ :=
    (c.interpretReceived d).1.exists_pollKeyboard_eq now (c.interpretReceived d).2
  have still : (c.beforeRouting now d).1.takeKeys.1.router.mode = .online := by
    rw [beforeRouting, same]
    exact online
  exact routeAll_typed _ (c.beforeRouting now d).2 _ still typed

/-- Terminal and bell go through such a turn as through one call of `print`. -/
theorem print_batch (s : Console cols rows × Devices ℓ κ β σ) (now : Instant)
    (online : s.1.router.mode = .online)
    (typed : ∀ token ∈ (s.1.beforeRouting now s.2).1.takeKeys.2, token.isAlt = false) (n : Nat) :
    ((stimulate s (.poll now)).1.terminal, (⟨n + rung s [.poll now]⟩ : Bell.Tally)) =
      s.1.terminal.print s.1.batch ⟨n⟩ := by
  obtain ⟨c, d⟩ := s
  -- the same turn with the rings counted
  have unchanged : (c.beforeRouting now (d.counting n)).1 = (c.beforeRouting now d).1 :=
    (congrArg Prod.fst (beforeRouting_map (f := id) (h := id) Bell.Counted.isHom_bell c now
      (d.counting n))).symm
  have typed' : ∀ token ∈ (c.beforeRouting now (d.counting n)).1.takeKeys.2,
      token.isAlt = false := by
    rw [unchanged]
    exact typed
  obtain ⟨keyboard, keys, tx, link, attached, turn⟩ :=
    c.poll_typed now (d.counting n) online typed'
  have counted := run_counting (c, d) [.poll now] n
  rw [run_cons, run_nil, stimulate, turn, run_cons, run_nil] at counted
  have terminal := congrArg (fun out => out.1.terminal) counted
  have rings := congrArg (fun out => out.2.bell.tally) counted
  have tallied := c.terminal.print_map Bell.Counted.isHom_tally c.batch
    (⟨d.bell, n⟩ : Bell.Counted β)
  exact (Prod.ext terminal rings).symm.trans tallied.symm

end Turn

/-! ## Runs without commands -/

section Stream

variable [SerialLink ℓ] [KeyboardHost κ] [Bell β] [ConfigSurface σ cols rows]

/-- The invariant, from any state on. -/
theorem run_typed (s : Console cols rows × Devices ℓ κ β σ) (stimuli : List Stimulus)
    (online : s.1.router.mode = .online)
    (typed : ∀ m ∈ keyHistory s stimuli, m.token.isAlt = false) :
    (run s stimuli).1.router.mode = .online ∧
      interpreted s stimuli ++ (run s stimuli).1.rx.toList =
        s.1.rx.toList ++ accepted s stimuli ∧
      ∀ n, ((run s stimuli).1.terminal, (⟨n + rung s stimuli⟩ : Bell.Tally)) =
        s.1.terminal.print (interpreted s stimuli) ⟨n⟩ := by
  induction stimuli generalizing s with
  | nil => exact ⟨online, (List.append_nil _).symm, fun _ => rfl⟩
  | cons e rest ih =>
    obtain ⟨now_typed, later⟩ := List.forall_mem_append.1 typed
    rw [run_cons]
    cases e with
    | receive b =>
      obtain ⟨still, conserved, printed⟩ := ih (stimulate s (.receive b)) online later
      refine ⟨still, ?_, printed⟩
      rw [accepted, ← List.append_assoc, ← s.1.toList_rx_receive b]
      exact conserved
    | poll now =>
      have typed_now : ∀ token ∈ (s.1.beforeRouting now s.2).1.takeKeys.2,
          token.isAlt = false := by
        intro token member
        rw [← token_keyMoments ((s.1.beforeRouting now s.2).1.takeKeys.1,
          (s.1.beforeRouting now s.2).2) (s.1.beforeRouting now s.2).1.takeKeys.2] at member
        obtain ⟨m, there, rfl⟩ := List.mem_map.1 member
        exact now_typed m there
      obtain ⟨keyboard, keys, tx, link, attached, turn⟩ :=
        s.1.poll_typed now s.2 online typed_now
      have mode : (stimulate s (.poll now)).1.router.mode = .online := by
        rw [stimulate, turn]
        exact online
      have rx : (stimulate s (.poll now)).1.rx = (s.1.rx.drain rxBatch).1 := by
        rw [stimulate, turn]
      obtain ⟨still, conserved, printed⟩ := ih (stimulate s (.poll now)) mode later
      obtain ⟨taken, left⟩ := s.1.rx.drain_eq rxBatch
      refine ⟨still, ?_, ?_⟩
      · rw [interpreted, List.append_assoc, conserved, rx, left, batch, taken,
          ← List.append_assoc, List.take_append_drop, accepted]
      · intro n
        have here := print_batch s now online typed_now n
        rw [interpreted, Terminal.print_append, ← here, rung_cons, ← Nat.add_assoc]
        exact printed _

/-- **Received bytes act as one stream**, whatever is typed meanwhile, as long as it is no
command. At every point of a run:

- the bytes interpreted so far, and behind them those that wait, are the bytes that the
  ring has taken, also in the middle of a batch;
- a turn interprets what waits, up to the size of a batch;
- terminal and number of rings are those of one transmission to the new terminal of all
  bytes interpreted so far, and so of all bytes taken when none waits. -/
theorem received_as_one_stream (settings : Settings) (layout : Layout) (d : Devices ℓ κ β σ)
    (stimuli : List Stimulus)
    (typed : ∀ m ∈ keyHistory (started cols rows settings layout d) stimuli,
      m.token.isAlt = false) :
    let s := started cols rows settings layout d
    let c := (run s stimuli).1
    let shown := (c.terminal, (⟨rung s stimuli⟩ : Bell.Tally))
    s.1.terminal = newTerminal cols rows settings ∧ c.router.mode = .online ∧
      interpreted s stimuli ++ c.rx.toList = accepted s stimuli ∧
      (∀ n, interpreted s stimuli ++ (c.rx.drain n).2 ++ (c.rx.drain n).1.toList =
        accepted s stimuli) ∧
      (∀ now, ∃ bytes, bytes.length = min 64 c.rx.size ∧
        interpreted s (stimuli ++ [.poll now]) = interpreted s stimuli ++ bytes) ∧
      shown = (newTerminal cols rows settings).print (interpreted s stimuli) ⟨0⟩ ∧
      (c.rx.isEmpty = true →
        shown = (newTerminal cols rows settings).print (accepted s stimuli) ⟨0⟩) := by
  intro s c shown
  obtain ⟨online, conserved, printed⟩ := run_typed s stimuli rfl typed
  have begun : s.1.rx.toList = [] := Ring.toList_empty _
  have queued : interpreted s stimuli ++ c.rx.toList = accepted s stimuli := by
    rw [begun] at conserved
    exact conserved
  have stream : shown = (newTerminal cols rows settings).print (interpreted s stimuli) ⟨0⟩ := by
    have all := printed 0
    rw [Nat.zero_add] at all
    exact all
  refine ⟨rfl, online, queued, ?_, ?_, stream, ?_⟩
  · intro n
    obtain ⟨taken, left⟩ := c.rx.drain_eq n
    rw [taken, left, List.append_assoc, List.take_append_drop, queued]
  · intro now
    refine ⟨c.batch, c.length_batch, ?_⟩
    rw [interpreted_append, interpreted, interpreted, List.append_nil]
  · intro none
    rw [← queued, (Ring.isEmpty_iff c.rx).1 none, List.append_nil]
    exact stream

/-- A letter, the bell and an escape sequence that is cut by two turns, while a letter is
typed. -/
theorem received_as_one_stream_across_turns :
    let d : Devices OpenLink KeyScript Bell.Silent ConfigPage :=
      ⟨⟨⟩, ⟨[.ofKeys ⟨0⟩ [0x04], .released]⟩, ⟨⟩, ⟨⟩⟩
    let s := started 20 3 {} .us d
    let stimuli : List Stimulus := [.receive 0x41, .receive 0x07, .receive 0x1B, .poll 0,
      .receive 0x5B, .poll 10, .receive 0x44, .receive 0x42, .poll 20]
    (keyHistory s stimuli).map KeyMoment.token = [.byte 0x61] ∧
      (∀ m ∈ keyHistory s stimuli, m.token.isAlt = false) ∧
      ((run s stimuli).1.terminal, (⟨rung s stimuli⟩ : Bell.Tally)) =
        (newTerminal 20 3 {}).print [0x41, 0x07, 0x1B, 0x5B, 0x44, 0x42] ⟨0⟩ := by
  intro d s stimuli
  have tokens : (keyHistory s stimuli).map KeyMoment.token = [.byte 0x61] := by decide +kernel
  have typed : ∀ m ∈ keyHistory s stimuli, m.token.isAlt = false := by
    intro m member
    have there : m.token ∈ [KeyToken.byte 0x61] := tokens ▸ List.mem_map_of_mem member
    rw [List.mem_singleton.1 there]
    rfl
  have none : (run s stimuli).1.rx.isEmpty = true := by decide +kernel
  have taken : accepted s stimuli = [0x41, 0x07, 0x1B, 0x5B, 0x44, 0x42] := by decide +kernel
  have stream := received_as_one_stream {} .us d stimuli typed
  -- from here on it does not matter where the run began
  generalize hbegun : started 20 3 {} .us d = begun at stream
  have same : s = begun := hbegun
  rw [same] at none taken tokens typed ⊢
  obtain ⟨-, -, -, -, -, -, shown⟩ := stream
  rw [← taken]
  exact ⟨tokens, typed, shown none⟩

end Stream

end Console

end SerialTerminal
