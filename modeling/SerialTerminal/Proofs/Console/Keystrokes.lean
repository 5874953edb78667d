/-
No keystroke is lost inside the console.

A key waits twice on its way to the host: as a token until the keys are routed, and as
bytes until the link takes them. Both places are rings that drop what finds them full. That
nothing is dropped is a matter of counting. A turn offers at most the six keys of a report
and six repeats to a queue for thirty-one, routes all of them before it ends, and a token
stands for at most four bytes of the ninety-nine that may wait for the link.

The count only holds because each turn begins with nothing waiting, so this is what is
carried from turn to turn: the key queue is empty between two turns always, and the
transmit ring if the link takes what it is given. Then **what is sent is what was typed**,
token by token, in the online mode (`no_keystroke_is_lost`).
-/
import SerialTerminal.Proofs.Console.Transmit

set_option autoImplicit false

namespace SerialTerminal

/-! ## Rings with room to spare -/

namespace Ring

variable {α : Type} {slots : Nat} {r : Ring α slots} {items : List α}

/-- None of the items offered finds the ring full. -/
def TakesAll : Ring α slots → List α → Prop
  | _, [] => True
  | r, a :: as => (r.push a).2 = true ∧ TakesAll (r.push a).1 as

theorem takesAll_of_room (room : r.toList.length + items.length ≤ slots - 1) :
    r.TakesAll items := by
  induction items generalizing r with
  | nil => trivial
  | cons a as ih =>
    rw [List.length_cons] at room
    have first : r.toList.length < slots - 1 := by omega
    refine ⟨?_, ih ?_⟩
    · rw [snd_push, decide_eq_true first]
    · rw [toList_push, if_pos first, List.length_append, List.length_singleton]
      omega

end Ring

/-! ## How much a turn can offer -/

namespace Keyboard

/-- A key listed twice in a report may count twice, but a report has six places. -/
theorem length_report_le (k : Keyboard) (r : KeyReport) (now : Instant) :
    (k.report r now).2.length ≤ KeyReport.maxKeys := by
  rw [report]
  split
  · exact Nat.zero_le _
  · rw [List.length_map]
    calc (k.presses r).length
        ≤ (r.pressed.filter fun key => !k.previous.contains key).length :=
          List.length_filterMap_le ..
      _ ≤ r.pressed.length := List.length_filter_le ..
      _ ≤ KeyReport.maxKeys := r.length_pressed_le

theorem length_fireRepeats_le (k : Keyboard) (now : Instant) :
    (k.fireRepeats now).2.length ≤ KeyReport.maxKeys := by
  calc (k.fireRepeats now).2.length ≤ k.repeats.slots.toList.length := List.length_filterMap_le ..
    _ = KeyReport.maxKeys := Vector.length_toList ..

end Keyboard

/-! ## A link that takes what it is given -/

namespace LinkCall

/-- The link is ready, or takes the byte. -/
def willing : LinkCall → Bool
  | ready answer => answer == .ready
  | send _ answer => answer == .taken
  | reconfigure _ _ => true

/-- The byte that goes out. -/
def sent? : LinkCall → Option UInt8
  | send b .taken => some b
  | _ => none

end LinkCall

/-- What the link took can be read off the requests alone. -/
theorem filterMap_sent?_requests (h : List Moment) :
    (requests h).filterMap LinkCall.sent? = taken h := by
  rw [requests, taken, List.filterMap_filterMap]
  congr 1
  funext m
  rcases m.event with _ | request
  · rfl
  · rcases request with _ | ⟨b, answer⟩ | _
    · rfl
    · cases answer <;> rfl
    · rfl

namespace Console

open Standing

variable {ℓ κ β σ : Type} {cols rows slots : Nat}

/-! ## The key queue -/

section Keys

variable [KeyboardHost κ]

/-- What the next report makes of the keyboard, and its tokens. -/
def reported (c : Console cols rows) (now : Instant) (attached : κ) : Keyboard × List KeyToken :=
  match (KeyboardHost.nextReport attached).2 with
  | none => (c.keyboard, [])
  | some report => c.keyboard.report report now

/-- The tokens of the next turn: those of the report and then those that are due. -/
def offeredKeys (c : Console cols rows) (now : Instant) (attached : κ) : List KeyToken :=
  (c.reported now attached).2 ++ ((c.reported now attached).1.fireRepeats now).2

theorem length_offeredKeys_le (c : Console cols rows) (now : Instant) (attached : κ) :
    (c.offeredKeys now attached).length ≤ 2 * KeyReport.maxKeys := by
  have pressed : (c.reported now attached).2.length ≤ KeyReport.maxKeys := by
    unfold reported
    split
    · exact Nat.zero_le _
    · exact c.keyboard.length_report_le _ now
  have fired := (c.reported now attached).1.length_fireRepeats_le now
  rw [offeredKeys, List.length_append]
  omega

theorem keys_updateLeds (c : Console cols rows) (d : Devices ℓ κ β σ) :
    (c.updateLeds d).1.keys = c.keys := by
  rw [updateLeds]
  split
  · rfl
  · rfl

theorem takeReport_eq (c : Console cols rows) (now : Instant) (d : Devices ℓ κ β σ) :
    (c.takeReport now d).1 =
      { c with
        keyboard := (c.reported now d.keyboard).1
        keys := c.keys.pushAll (c.reported now d.keyboard).2 } := by
  cases hreport : (KeyboardHost.nextReport d.keyboard).2 with
  | none =>
    simp only [takeReport, reported, hreport]
    rfl
  | some report => simp only [takeReport, reported, hreport]

theorem keys_pollKeyboard (c : Console cols rows) (now : Instant) (d : Devices ℓ κ β σ) :
    (c.pollKeyboard now d).1.keys = c.keys.pushAll (c.offeredKeys now d.keyboard) := by
  rw [pollKeyboard, keys_updateLeds, takeReport_eq, offeredKeys, Ring.pushAll_append]
  rfl

theorem keys_beforeRouting [Bell β] (c : Console cols rows) (now : Instant)
    (d : Devices ℓ κ β σ) :
    (c.beforeRouting now d).1.keys = c.keys.pushAll (c.offeredKeys now d.keyboard) :=
  keys_pollKeyboard (c.interpretReceived d).1 now (c.interpretReceived d).2

end Keys

theorem takeKeys_eq (c : Console cols rows) :
    c.takeKeys.2 = c.keys.toList ∧ c.takeKeys.1.keys.toList = [] := by
  obtain ⟨out, left⟩ := c.keys.drain_eq c.keys.size
  have all : c.keys.toList.length = c.keys.size := c.keys.length_toList
  refine ⟨out.trans ?_, left.trans ?_⟩
  · rw [← all, List.take_length]
  · rw [← all, List.drop_length]

/-- A turn that begins with no key waiting has room for all that it is going to offer. -/
theorem room_offeredKeys [KeyboardHost κ] {c : Console cols rows} (none : c.keys.toList = [])
    (now : Instant) (attached : κ) :
    c.keys.toList.length + (c.offeredKeys now attached).length ≤ keySlots - 1 := by
  have few := c.length_offeredKeys_le now attached
  rw [none, List.length_nil]
  -- twelve tokens, and thirty-one places
  unfold KeyReport.maxKeys at few
  unfold keySlots
  omega

/-- **A turn routes the tokens that it was offered**, all of them and in their order. -/
theorem takeKeys_beforeRouting [KeyboardHost κ] [Bell β] {c : Console cols rows}
    (none : c.keys.toList = []) (now : Instant) (d : Devices ℓ κ β σ) :
    (c.beforeRouting now d).1.takeKeys.2 = c.offeredKeys now d.keyboard := by
  rw [(takeKeys_eq _).1, keys_beforeRouting,
    Ring.toList_pushAll_of_room (room_offeredKeys none now d.keyboard), none, List.nil_append]

section Routed

variable [SerialLink ℓ] [Bell β] [ConfigSurface σ cols rows]

theorem keys_routeAll (s : Console cols rows × Devices ℓ κ β σ) (tokens : List KeyToken) :
    (routeAll s tokens).1.keys = s.1.keys := by
  obtain ⟨_, _, _, _, _, _, _, routed⟩ := exists_routeAll s tokens
  rw [routed]

variable [KeyboardHost κ]

/-- Whatever waits, a turn routes all of it. -/
theorem keys_poll (c : Console cols rows) (now : Instant) (d : Devices ℓ κ β σ) :
    (c.poll now d).1.keys.toList = [] := by
  have sent : (c.poll now d).1.keys = (c.beforeTransmit now d).1.keys := by
    rw [poll_eq]
    generalize c.beforeTransmit now d = sending
    rfl
  rw [sent, beforeTransmit, routeKeys_eq, keys_routeAll]
  exact (takeKeys_eq _).2

theorem keys_run {s : Console cols rows × Devices ℓ κ β σ} (none : s.1.keys.toList = [])
    (stimuli : List Stimulus) : (run s stimuli).1.keys.toList = [] := by
  induction stimuli generalizing s with
  | nil => exact none
  | cons e rest ih =>
    apply ih
    cases e with
    | receive b => exact none
    | poll now => exact s.1.keys_poll now s.2

/-- The tokens offered during a run. -/
def offered (s : Console cols rows × Devices ℓ κ β σ) : List Stimulus → List KeyToken
  | [] => []
  | .receive b :: rest => offered (stimulate s (.receive b)) rest
  | .poll now :: rest =>
    s.1.offeredKeys now s.2.keyboard ++ offered (stimulate s (.poll now)) rest

theorem token_routings {s : Console cols rows × Devices ℓ κ β σ} (none : s.1.keys.toList = [])
    (stimuli : List Stimulus) :
    (routings s stimuli).map Routing.token = offered s stimuli := by
  induction stimuli generalizing s with
  | nil => rfl
  | cons e rest ih =>
    have still : (stimulate s e).1.keys.toList = [] := keys_run none [e]
    rw [routings, List.map_append, ih still]
    cases e with
    | receive b => rfl
    | poll now =>
      rw [offered, stimulusRoutings, token_routingsOf, takeKeys_beforeRouting none]

end Routed

/-! ## The transmit ring -/

/-- The bytes that routed keys are worth to the host. -/
def worth (keys : List (Routing ℓ κ β σ cols rows)) : List UInt8 :=
  keys.flatMap fun r => offers r.state.1 r.token

theorem worth_cons (r : Routing ℓ κ β σ cols rows) (rest : List (Routing ℓ κ β σ cols rows)) :
    worth (r :: rest) = offers r.state.1 r.token ++ worth rest :=
  List.flatMap_cons

theorem worth_append (front back : List (Routing ℓ κ β σ cols rows)) :
    worth (front ++ back) = worth front ++ worth back :=
  List.flatMap_append

theorem offers_eq (c : Console cols rows) (token : KeyToken) :
    offers c token =
      if c.router.mode = .online ∧ token.isAlt = false then token.bytes else [] := by
  unfold offers
  cases hmode : c.router.mode with
  | online =>
    cases halt : token.isAlt with
    | true => simp [token.bytes_eq_nil_iff.2 halt]
    | false => simp
  | loopback => simp
  | config => simp

/-- Commands are worth nothing, so those that are no commands make up the whole. -/
theorem worth_eq (keys : List (Routing ℓ κ β σ cols rows)) :
    worth keys =
      (keys.filter fun r => r.state.1.router.mode = .online ∧ r.token.isAlt = false).flatMap
        fun r => r.token.bytes := by
  induction keys with
  | nil => rfl
  | cons r rest ih =>
    rw [worth_cons, ih, offers_eq, List.filter_cons]
    by_cases counts : r.state.1.router.mode = .online ∧ r.token.isAlt = false
    · rw [if_pos counts, if_pos (decide_eq_true counts), List.flatMap_cons]
    · rw [if_neg counts, if_neg (by simpa using counts), List.nil_append]

section Bytes

variable [SerialLink ℓ] [Bell β] [ConfigSurface σ cols rows]

theorem length_worth_routingsOf_le (s : Console cols rows × Devices ℓ κ β σ)
    (tokens : List KeyToken) : (worth (routingsOf s tokens)).length ≤ 4 * tokens.length := by
  induction tokens generalizing s with
  | nil => exact Nat.le_refl 0
  | cons token rest ih =>
    have here : (offers s.1 token).length ≤ 4 := by
      rw [offers_eq]
      split
      · exact token.length_bytes_le
      · exact Nat.zero_le 4
    have later := ih (routeKey s token)
    rw [routingsOf, worth_cons, List.length_append, List.length_cons]
    dsimp only
    omega

omit [SerialLink ℓ] [Bell β] [ConfigSurface σ cols rows] in
/-- Offers that there is room for are kept, and none is dropped. -/
theorem offerHistory_of_room {tx : Ring UInt8 slots} {items : List UInt8}
    (room : tx.toList.length + items.length ≤ slots - 1) :
    kept (offerHistory tx items) = items ∧ lost (offerHistory tx items) = [] := by
  induction items generalizing tx with
  | nil => exact ⟨rfl, rfl⟩
  | cons b rest ih =>
    rw [List.length_cons] at room
    have first : tx.toList.length < slots - 1 := by omega
    have accepted : (tx.push b).2 = true := by
      rw [Ring.snd_push, decide_eq_true first]
    have later : (tx.push b).1.toList.length + rest.length ≤ slots - 1 := by
      rw [Ring.toList_push, if_pos first, List.length_append, List.length_singleton]
      omega
    obtain ⟨keeps, drops⟩ := ih later
    rw [offerHistory, accepted]
    exact ⟨congrArg (b :: ·) keeps, drops⟩

/-- The ring keeps what the keys of a turn are worth, if there is room for all of it. -/
theorem routeAllHistory_of_room (s : Console cols rows × Devices ℓ κ β σ)
    (tokens : List KeyToken)
    (room : s.1.tx.toList.length + (worth (routingsOf s tokens)).length ≤ txSlots - 1) :
    kept (routeAllHistory s tokens) = worth (routingsOf s tokens) ∧
      lost (routeAllHistory s tokens) = [] := by
  induction tokens generalizing s with
  | nil => exact ⟨rfl, rfl⟩
  | cons token rest ih =>
    rw [routingsOf, worth_cons, List.length_append] at room
    dsimp only at room
    have here : s.1.tx.toList.length + (offers s.1 token).length ≤ txSlots - 1 := by omega
    have later : (routeKey s token).1.tx.toList.length +
        (worth (routingsOf (routeKey s token) rest)).length ≤ txSlots - 1 := by
      rw [tx_routeKey, Ring.toList_pushAll_of_room here, List.length_append]
      omega
    obtain ⟨keptNow, lostNow⟩ := offerHistory_of_room here
    obtain ⟨keptLater, lostLater⟩ := ih (routeKey s token) later
    have asks : ∀ m ∈ (routeCalls s token).map fun request =>
        (⟨.call request, (routeKey s token).1.tx.toList⟩ : Moment),
        ∃ request, m.event = .call request := by
      intro m member
      obtain ⟨request, -, rfl⟩ := List.mem_map.1 member
      exact ⟨request, rfl⟩
    obtain ⟨keptAsking, lostAsking⟩ := kept_lost_of_requests asks
    rw [routeAllHistory, routeHistory, kept_append, kept_append, lost_append, lost_append,
      keptNow, keptAsking, keptLater, lostNow, lostAsking, lostLater, routingsOf, worth_cons,
      List.append_nil]
    exact ⟨rfl, rfl⟩

omit [Bell β] [ConfigSurface σ cols rows] in
/-- An attempt that the link never breaks off leaves nothing behind. -/
theorem toList_transmit_of_willing {n : Nat} {tx : Ring UInt8 slots} {link : ℓ}
    (enough : tx.toList.length ≤ n)
    (willing : ∀ request ∈ transmitCalls n tx link, request.willing = true) :
    (transmit n tx link).1.toList = [] := by
  induction n generalizing tx link with
  | zero => exact List.eq_nil_of_length_eq_zero (Nat.le_zero.1 enough)
  | succ n ih =>
    cases hqueue : tx.toList with
    | nil => rw [transmit_of_empty _ link hqueue, hqueue]
    | cons b rest =>
      -- a willing link takes the oldest byte, and the attempt goes on with one less
      have hpeek : tx.peek? = some b := by
        rw [Ring.peek?_eq, hqueue, List.head?_cons]
      have hpop : tx.pop.1.toList = rest := by
        rw [tx.pop_eq.2, hqueue, List.tail_cons]
      rw [transmitCalls_succ, hpeek] at willing
      rw [transmit_succ, hpeek]
      dsimp only at willing ⊢
      have hready : (SerialLink.ready link).2 = .ready :=
        eq_of_beq (willing _ List.mem_cons_self)
      rw [if_pos hready] at willing ⊢
      have htaken : (SerialLink.send (SerialLink.ready link).1 b).2 = .taken :=
        eq_of_beq (willing _ (List.mem_cons_of_mem _ List.mem_cons_self))
      rw [if_pos htaken] at willing ⊢
      apply ih
      · rw [hqueue, List.length_cons] at enough
        rw [hpop]
        omega
      · intro request member
        exact willing request (List.mem_cons_of_mem _ (List.mem_cons_of_mem _ member))

variable [KeyboardHost κ]

/-- **The count.** With nothing waiting, six keys and six repeats of at most four bytes each
do not fill the ring. -/
theorem room_worth {c : Console cols rows} (noKey : c.keys.toList = [])
    (noByte : c.tx.toList = []) (now : Instant) (d : Devices ℓ κ β σ) :
    (c.beforeRouting now d).1.takeKeys.1.tx.toList.length +
      (worth (stimulusRoutings (c, d) (.poll now))).length ≤ txSlots - 1 := by
  have few := c.length_offeredKeys_le now d.keyboard
  have bytes := length_worth_routingsOf_le
    ((c.beforeRouting now d).1.takeKeys.1, (c.beforeRouting now d).2)
    (c.beforeRouting now d).1.takeKeys.2
  have unmoved : (c.beforeRouting now d).1.takeKeys.1.tx = c.tx := tx_beforeRouting c now d
  dsimp only [stimulusRoutings]
  rw [unmoved, noByte, List.length_nil]
  rw [takeKeys_beforeRouting noKey] at bytes ⊢
  -- twelve tokens of four bytes, and ninety-nine places
  unfold KeyReport.maxKeys at few
  unfold txSlots
  omega

/-- One stimulus: what the keys are worth is kept, and has gone out when it is over. -/
theorem stimulate_willing {s : Console cols rows × Devices ℓ κ β σ}
    (noKey : s.1.keys.toList = []) (noByte : s.1.tx.toList = []) (e : Stimulus)
    (willing : ∀ request ∈ stimulusCalls s e, request.willing = true) :
    (stimulate s e).1.tx.toList = [] ∧
      kept (stimulusHistory s e) = worth (stimulusRoutings s e) ∧
      lost (stimulusHistory s e) = [] := by
  cases e with
  | receive b => exact ⟨noByte, rfl, rfl⟩
  | poll now =>
    let before := s.1.beforeRouting now s.2
    let sending := s.1.beforeTransmit now s.2
    obtain ⟨keeps, drops⟩ := routeAllHistory_of_room (before.1.takeKeys.1, before.2)
      before.1.takeKeys.2 (room_worth noKey noByte now s.2)
    obtain ⟨keepsNone, dropsNone⟩ :=
      kept_lost_transmitHistory sending.1.tx.size sending.1.tx sending.2.link
    refine ⟨?_, ?_, ?_⟩
    · have all : sending.1.tx.toList.length ≤ sending.1.tx.size :=
        Nat.le_of_eq sending.1.tx.length_toList
      exact toList_transmit_of_willing all (List.forall_mem_append.1 willing).2
    · rw [stimulusHistory, kept_append, keeps, keepsNone, List.append_nil]
      rfl
    · rw [stimulusHistory, lost_append, drops, dropsNone, List.append_nil]

/-- The invariant, from any state on in which nothing waits. -/
theorem run_willing {s : Console cols rows × Devices ℓ κ β σ} (noKey : s.1.keys.toList = [])
    (noByte : s.1.tx.toList = []) (stimuli : List Stimulus)
    (willing : ∀ request ∈ linkCalls s stimuli, request.willing = true) :
    (run s stimuli).1.tx.toList = [] ∧
      kept (history s stimuli) = worth (routings s stimuli) ∧
      lost (history s stimuli) = [] := by
  induction stimuli generalizing s with
  | nil => exact ⟨noByte, rfl, rfl⟩
  | cons e rest ih =>
    rw [linkCalls_cons] at willing
    obtain ⟨here, later⟩ := List.forall_mem_append.1 willing
    obtain ⟨empty, keeps, drops⟩ := stimulate_willing noKey noByte e here
    have still : (stimulate s e).1.keys.toList = [] := keys_run noKey [e]
    obtain ⟨last, keepsLater, dropsLater⟩ := ih still empty later
    refine ⟨last, ?_, ?_⟩
    · rw [history, kept_append, keeps, keepsLater, routings, worth_append]
    · rw [history, lost_append, drops, dropsLater, List.append_nil]

theorem linkCalls_append (s : Console cols rows × Devices ℓ κ β σ) (front back : List Stimulus) :
    linkCalls s (front ++ back) = linkCalls s front ++ linkCalls (run s front) back := by
  induction front generalizing s with
  | nil => rfl
  | cons e rest ih =>
    rw [List.cons_append, linkCalls_cons, linkCalls_cons, ih, List.append_assoc, run_cons]

variable (cols rows) in
/-- **No keystroke is lost inside the console.** In every run, whatever the keyboard
reports, the host sends and the surface does: no key waits between two turns, the key queue
takes every token that it is offered, and the tokens routed are those offered, in order. If
the link is always ready and takes every byte, then no byte waits between two turns either,
none is dropped, and the bytes sent are those of the tokens that were routed in the online
mode and were no commands. -/
theorem no_keystroke_is_lost (settings : Settings) (layout : Layout) (d : Devices ℓ κ β σ)
    (stimuli : List Stimulus) :
    let s := started cols rows settings layout d
    (∀ front, front <+: stimuli → (run s front).1.keys.toList = []) ∧
    (∀ front now, front ++ [.poll now] <+: stimuli →
      let t := run s front
      let tokens := t.1.offeredKeys now t.2.keyboard
      t.1.keys.TakesAll tokens ∧ (t.1.beforeRouting now t.2).1.keys = t.1.keys.pushAll tokens) ∧
    (routings s stimuli).map Routing.token = offered s stimuli ∧
    ((∀ request ∈ linkCalls s stimuli, request.willing = true) →
      (∀ front, front <+: stimuli → (run s front).1.tx.toList = []) ∧
      lost (history s stimuli) = [] ∧
      (linkCalls s stimuli).filterMap LinkCall.sent? =
        ((routings s stimuli).filter fun r =>
            r.state.1.router.mode = .online ∧ r.token.isAlt = false).flatMap
          fun r => r.token.bytes) := by
  intro s
  have noKey : s.1.keys.toList = [] := Ring.toList_empty (by decide)
  have noByte : s.1.tx.toList = [] := Ring.toList_empty (by decide)
  refine ⟨fun front _ => keys_run noKey front, ?_, token_routings noKey stimuli, ?_⟩
  · intro front now _ t tokens
    have waits : t.1.keys.toList = [] := keys_run noKey front
    exact ⟨Ring.takesAll_of_room (room_offeredKeys waits now t.2.keyboard),
      keys_beforeRouting t.1 now t.2⟩
  · intro willing
    obtain ⟨empty, keeps, drops⟩ := run_willing noKey noByte stimuli willing
    refine ⟨?_, drops, ?_⟩
    · rintro front ⟨back, rfl⟩
      rw [linkCalls_append] at willing
      exact (run_willing noKey noByte front (List.forall_mem_append.1 willing).1).1
    · have conserved := (steps_history s stimuli).conserves
      dsimp only [idle] at conserved
      rw [noByte, empty, List.nil_append, List.append_nil] at conserved
      rw [← requests_history, filterMap_sent?_requests, ← conserved, keeps, worth_eq]

/-- A report that lists a key twice, a word of it in the local mode, where a key also
repeats, and one more letter after the way back. -/
theorem no_keystroke_is_lost_around_local_mode :
    let d : Devices OpenLink KeyScript Bell.Silent ConfigPage :=
      ⟨⟨⟩, ⟨[.ofKeys {} [0x04, 0x04, 0x52], .ofKeys ⟨0x04⟩ [0x0F], .ofKeys {} [0x05],
        .ofKeys {} [0x05], .ofKeys ⟨0x04⟩ [0x0F], .ofKeys {} [0x06]]⟩, ⟨⟩, ⟨⟩⟩
    let s := started 8 2 {} .us d
    let stimuli := [.poll 0, .poll 10, .receive 0x41, .poll 20, .poll 700, .poll 710, .poll 720]
    (∀ request ∈ linkCalls s stimuli, request.willing = true) ∧
      (run s stimuli).1.keys.toList = [] ∧ (run s stimuli).1.tx.toList = [] ∧
      (offered s stimuli).length = 8 ∧
      (linkCalls s stimuli).filterMap LinkCall.sent? = [0x61, 0x61, 0x1B, 0x5B, 0x41, 0x63] := by
  intro d s stimuli
  have willing : ∀ request ∈ linkCalls s stimuli, request.willing = true := by decide +kernel
  have tokens : ((routings s stimuli).map Routing.token).length = 8 := by decide +kernel
  have typed : (((routings s stimuli).filter fun r =>
      r.state.1.router.mode = .online ∧ r.token.isAlt = false).flatMap fun r => r.token.bytes) =
        [0x61, 0x61, 0x1B, 0x5B, 0x41, 0x63] := by decide +kernel
  have lossless := no_keystroke_is_lost 8 2 {} .us d stimuli
  -- from here on it does not matter where the run began
  generalize hbegun : started 8 2 {} .us d = begun at lossless
  have same : s = begun := hbegun
  rw [same] at willing tokens typed ⊢
  obtain ⟨keys, -, routed, ifWilling⟩ := lossless
  obtain ⟨bytes, -, sent⟩ := ifWilling willing
  rw [routed] at tokens
  rw [typed] at sent
  have whole : stimuli <+: stimuli := List.prefix_refl stimuli
  exact ⟨willing, keys stimuli whole, bytes stimuli whole, tokens, sent⟩

end Bytes

end Console

end SerialTerminal
