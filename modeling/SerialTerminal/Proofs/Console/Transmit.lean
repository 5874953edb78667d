/-
The way of a byte to the host.

A byte typed in the online mode is offered to the transmit ring, waits there, and
leaves it when the link takes it. Everything that happens on this way is a list of
moments, each with the bytes that wait after it (`Console.history`). A moment is an
offer to the ring or a request to the link; a delivery and the removal that answers
it are one moment.

What a single moment can do is said once, in `Standing.Step`: an offer appends or
is dropped, only the oldest byte is ever sent, only right after the link said that it
is ready, and only a byte that was taken leaves. **Every history is a chain of such
steps**, whatever the link answers, and what the whole path promises follows from
the chain alone: the bytes taken, followed by those that wait, are the bytes kept.

The history is not a second program. Its requests are what a recorder around the
link writes down (`requests_history`), and its offers are what the router offers to the
ring (`tx_routeKey`).
-/
import Mathlib.Data.List.Induction
import SerialTerminal.Proofs.Console.Recorder
import SerialTerminal.Ring.Contents

set_option autoImplicit false

namespace SerialTerminal

/-! ## Moments -/

/-- Something that happens to the bytes for the host. -/
inductive TxEvent where
  /-- A byte is offered to the ring, which keeps it or is full. -/
  | offer (b : UInt8) (kept : Bool)
  /-- The link is asked. -/
  | call (request : LinkCall)
  deriving DecidableEq

/-- An event, and the bytes that wait after it. -/
structure Moment where
  event : TxEvent
  queue : List UInt8
  deriving DecidableEq

namespace TxEvent

/-- The byte that the event put into the ring. -/
def kept? : TxEvent → Option UInt8
  | offer b true => some b
  | _ => none

/-- The byte that found the ring full. -/
def lost? : TxEvent → Option UInt8
  | offer b false => some b
  | _ => none

/-- The byte that the event handed to the link. -/
def taken? : TxEvent → Option UInt8
  | call (.send b .taken) => some b
  | _ => none

def request? : TxEvent → Option LinkCall
  | offer _ _ => none
  | call request => some request

end TxEvent

/-- The bytes that the ring kept, in the order of the offers. -/
def kept (h : List Moment) : List UInt8 :=
  h.filterMap fun m => m.event.kept?

/-- The bytes that the ring dropped, in the order of the offers. -/
def lost (h : List Moment) : List UInt8 :=
  h.filterMap fun m => m.event.lost?

/-- The bytes that the link took, in order. -/
def taken (h : List Moment) : List UInt8 :=
  h.filterMap fun m => m.event.taken?

/-- The requests made to the link, in order. -/
def requests (h : List Moment) : List LinkCall :=
  h.filterMap fun m => m.event.request?

theorem kept_append (g h : List Moment) : kept (g ++ h) = kept g ++ kept h :=
  List.filterMap_append

theorem lost_append (g h : List Moment) : lost (g ++ h) = lost g ++ lost h :=
  List.filterMap_append

theorem taken_append (g h : List Moment) : taken (g ++ h) = taken g ++ taken h :=
  List.filterMap_append

theorem requests_append (g h : List Moment) : requests (g ++ h) = requests g ++ requests h :=
  List.filterMap_append

/-- Where only the link is asked, nothing is offered to the ring. -/
theorem kept_lost_of_requests {h : List Moment}
    (asks : ∀ m ∈ h, ∃ request, m.event = .call request) : kept h = [] ∧ lost h = [] := by
  rw [kept, lost, List.filterMap_eq_nil_iff, List.filterMap_eq_nil_iff]
  refine ⟨?_, ?_⟩
  · intro m member
    obtain ⟨request, asked⟩ := asks m member
    rw [asked]
    rfl
  · intro m member
    obtain ⟨request, asked⟩ := asks m member
    rw [asked]
    rfl

/-! ## What a moment can do -/

/-- What matters between two moments: the bytes that wait, and whether the link has
just said that it is ready. -/
structure Standing where
  queue : List UInt8
  granted : Bool

namespace Standing

/-- Nothing has been granted. -/
def idle (queue : List UInt8) : Standing :=
  ⟨queue, false⟩

/-- **What a moment can do.** -/
inductive Step : Standing → Moment → Standing → Prop where
  | keep (queue granted b) :
      Step ⟨queue, granted⟩ ⟨.offer b true, queue ++ [b]⟩ ⟨queue ++ [b], false⟩
  | drop (queue granted b) :
      Step ⟨queue, granted⟩ ⟨.offer b false, queue⟩ ⟨queue, false⟩
  | reconfigure (queue granted config done) :
      Step ⟨queue, granted⟩ ⟨.call (.reconfigure config done), queue⟩ ⟨queue, false⟩
  | ask (queue granted answer) :
      Step ⟨queue, granted⟩ ⟨.call (.ready answer), queue⟩ ⟨queue, answer == .ready⟩
  | deliver (b queue) :
      Step ⟨b :: queue, true⟩ ⟨.call (.send b .taken), queue⟩ ⟨queue, false⟩
  | refuse (b queue answer) (h : answer ≠ .taken) :
      Step ⟨b :: queue, true⟩ ⟨.call (.send b answer), b :: queue⟩ ⟨b :: queue, false⟩

/-- Moments one after the other. -/
inductive Steps : Standing → List Moment → Standing → Prop where
  | nil (s) : Steps s [] s
  | cons {s t u m h} : Step s m t → Steps t h u → Steps s (m :: h) u

variable {s t u : Standing} {m : Moment} {g h : List Moment}

theorem Step.queue_eq (step : Step s m t) : t.queue = m.queue := by
  cases step <;> rfl

/-- One moment takes a byte from the front, or puts one at the end, or neither. -/
theorem Step.conserves (step : Step s m t) :
    s.queue ++ kept [m] = taken [m] ++ t.queue := by
  cases step with
  | keep queue granted b => rfl
  | drop queue granted b => exact List.append_nil queue
  | reconfigure queue granted config done => exact List.append_nil queue
  | ask queue granted answer => exact List.append_nil queue
  | deliver b queue => exact List.append_nil (b :: queue)
  | refuse b queue answer h =>
    have none : taken [⟨.call (.send b answer), b :: queue⟩] = [] := by
      cases answer with
      | taken => exact absurd rfl h
      | refused => rfl
      | failed => rfl
    rw [none]
    exact List.append_nil (b :: queue)

/-- Only the answer that the link is ready grants a delivery. -/
theorem Step.of_granted (step : Step s m t) (granted : t.granted = true) :
    m = ⟨.call (.ready .ready), t.queue⟩ := by
  cases step with
  | ask queue before answer =>
    have ready : answer = .ready := eq_of_beq granted
    rw [ready]
  | keep | drop | reconfigure | deliver | refuse => cases granted

/-- What is sent is the oldest byte, it was granted, and it stays unless it is
taken. -/
theorem Step.of_send (step : Step s m t) {b : UInt8} {answer : Delivery}
    (event : m.event = .call (.send b answer)) :
    s.granted = true ∧ ∃ rest, s.queue = b :: rest ∧
      m.queue = if answer = .taken then rest else b :: rest := by
  cases step with
  | deliver b' rest =>
    cases event
    exact ⟨rfl, rest, rfl, rfl⟩
  | refuse b' rest answer' h =>
    cases event
    exact ⟨rfl, rest, rfl, (if_neg h).symm⟩
  | keep | drop | reconfigure | ask => cases event

/-- A question leaves the queue alone, whatever the answer. -/
theorem Step.of_ready (step : Step s m t) {answer : Readiness}
    (event : m.event = .call (.ready answer)) : m.queue = s.queue := by
  cases step with
  | ask => rfl
  | keep | drop | reconfigure | deliver | refuse => cases event

/-! ## Chains of moments -/

theorem Steps.append (front : Steps s g t) (back : Steps t h u) : Steps s (g ++ h) u := by
  induction front with
  | nil s => exact back
  | cons step _ ih => exact .cons step (ih back)

/-- A chain can be cut anywhere. -/
theorem Steps.cut (chain : Steps s (g ++ h) u) : ∃ t, Steps s g t ∧ Steps t h u := by
  induction g generalizing s with
  | nil => exact ⟨s, .nil s, chain⟩
  | cons m g ih =>
    cases chain with
    | cons step rest =>
      obtain ⟨t, front, back⟩ := ih rest
      exact ⟨t, .cons step front, back⟩

theorem Steps.single (step : Step s m t) : Steps s [m] t :=
  .cons step (.nil t)

theorem Steps.eq_of_nil (chain : Steps s [] t) : s = t := by
  cases chain
  rfl

/-- A chain around a moment: what came before, the step itself, and what follows. -/
theorem Steps.at (chain : Steps s (g ++ m :: h) u) :
    ∃ before after, Steps s g before ∧ Step before m after ∧ Steps after h u := by
  obtain ⟨before, front, back⟩ := chain.cut
  cases back with
  | cons step rest => exact ⟨before, _, front, step, rest⟩

/-- **Nothing is lost, doubled or put out of order on the way.** -/
theorem Steps.conserves (chain : Steps s h t) :
    s.queue ++ kept h = taken h ++ t.queue := by
  induction chain with
  | nil s => exact List.append_nil s.queue
  | @cons s t u m h step _ ih =>
    have split : m :: h = [m] ++ h := rfl
    rw [split, kept_append, taken_append, ← List.append_assoc, step.conserves,
      List.append_assoc, ih, List.append_assoc]

theorem Steps.eq_nil_or_append (chain : Steps s h t) :
    (h = [] ∧ s = t) ∨ ∃ g m before, h = g ++ [m] ∧ Steps s g before ∧ Step before m t := by
  induction h using List.reverseRecOn with
  | nil => exact .inl ⟨rfl, chain.eq_of_nil⟩
  | append_singleton g m _ =>
    obtain ⟨before, after, front, step, rest⟩ := chain.at
    obtain rfl := rest.eq_of_nil
    exact .inr ⟨g, m, before, rfl, front, step⟩

/-! ### A chain that begins with nothing waiting -/

/-- At every point the bytes taken and the bytes that wait are the bytes kept. -/
theorem Steps.conserves_at (chain : Steps (idle []) (g ++ m :: h) u) :
    taken (g ++ [m]) ++ m.queue = kept (g ++ [m]) := by
  obtain ⟨before, after, front, step, -⟩ := chain.at
  have whole := (front.append (.single step)).conserves
  rw [step.queue_eq] at whole
  exact whole.symm

/-- A byte is sent right after the answer that the link is ready, and it was the
oldest one then. -/
theorem Steps.send_at {b : UInt8} {answer : Delivery} {queue : List UInt8}
    (chain : Steps (idle []) (g ++ ⟨.call (.send b answer), queue⟩ :: h) u) :
    ∃ earlier waiting, g = earlier ++ [⟨.call (.ready .ready), b :: waiting⟩] ∧
      queue = if answer = .taken then waiting else b :: waiting := by
  obtain ⟨before, after, front, step, -⟩ := chain.at
  obtain ⟨granted, waiting, hbefore, hqueue⟩ := step.of_send rfl
  -- at the very beginning nothing is granted, so a moment came before
  rcases front.eq_nil_or_append with ⟨-, rfl⟩ | ⟨earlier, asked, _, rfl, -, last⟩
  · cases granted
  · have ready := last.of_granted granted
    rw [hbefore] at ready
    exact ⟨earlier, waiting, by rw [ready], hqueue⟩

/-- A question leaves the queue as the moment before left it. -/
theorem Steps.ready_at {answer : Readiness} {queue : List UInt8}
    (chain : Steps (idle []) (g ++ ⟨.call (.ready answer), queue⟩ :: h) u) :
    queue = (g.getLast?.map Moment.queue).getD [] := by
  obtain ⟨before, after, front, step, -⟩ := chain.at
  have unmoved : queue = before.queue := step.of_ready rfl
  rw [unmoved]
  rcases front.eq_nil_or_append with ⟨rfl, rfl⟩ | ⟨earlier, last, _, rfl, -, hlast⟩
  · rfl
  · rw [List.getLast?_concat, hlast.queue_eq]
    rfl

end Standing

namespace Console

open Standing

variable {ℓ κ β σ : Type} {cols rows slots : Nat}

/-! ## The history of a run -/

/-- Offers to a ring. -/
def offerHistory : Ring UInt8 slots → List UInt8 → List Moment
  | _, [] => []
  | tx, b :: rest =>
    ⟨.offer b (tx.push b).2, (tx.push b).1.toList⟩ :: offerHistory (tx.push b).1 rest

/-- A transmission, request by request. -/
def transmitHistory [SerialLink ℓ] : Nat → Ring UInt8 slots → ℓ → List Moment
  | 0, _, _ => []
  | n + 1, tx, link =>
    match tx.peek? with
    | none => []
    | some b =>
      let asked := SerialLink.ready link
      ⟨.call (.ready asked.2), tx.toList⟩ ::
        if asked.2 = .ready then
          let offered := SerialLink.send asked.1 b
          if offered.2 = .taken then
            -- the removal belongs to the delivery
            ⟨.call (.send b .taken), tx.pop.1.toList⟩ ::
              transmitHistory n tx.pop.1 offered.1
          else [⟨.call (.send b offered.2), tx.toList⟩]
        else []

/-- The bytes that a token is worth to the host. -/
def offers (c : Console cols rows) (token : KeyToken) : List UInt8 :=
  match c.router.mode with
  | .online => token.bytes
  | .loopback => []
  | .config => []

section Histories

variable [SerialLink ℓ] [Bell β] [ConfigSurface σ cols rows]

/-- A token: its bytes are offered, and the link is set anew when it ends an edit. -/
def routeHistory (s : Console cols rows × Devices ℓ κ β σ) (token : KeyToken) : List Moment :=
  offerHistory s.1.tx (offers s.1 token) ++
    (routeCalls s token).map fun request => ⟨.call request, (routeKey s token).1.tx.toList⟩

def routeAllHistory (s : Console cols rows × Devices ℓ κ β σ) : List KeyToken → List Moment
  | [] => []
  | token :: rest => routeHistory s token ++ routeAllHistory (routeKey s token) rest

variable [KeyboardHost κ]

/-- A stimulus: only a turn of the loop moves bytes for the host. -/
def stimulusHistory (s : Console cols rows × Devices ℓ κ β σ) : Stimulus → List Moment
  | .receive _ => []
  | .poll now =>
    let before := s.1.beforeRouting now s.2
    let sending := s.1.beforeTransmit now s.2
    routeAllHistory (before.1.takeKeys.1, before.2) before.1.takeKeys.2 ++
      transmitHistory sending.1.tx.size sending.1.tx sending.2.link

/-- Everything that happens to the bytes for the host during a run. -/
def history (s : Console cols rows × Devices ℓ κ β σ) : List Stimulus → List Moment
  | [] => []
  | e :: rest => stimulusHistory s e ++ history (stimulate s e) rest

end Histories

/-! ## What the router offers -/

theorem tx_dispatch [Bell β] [ConfigSurface σ cols rows] (c : Console cols rows)
    (token : KeyToken) (e : Endpoints β σ cols rows txSlots) :
    (c.router.dispatch token c.settings e).2.1.tx = e.tx.pushAll (offers c token) := by
  rcases c with ⟨terminal, keyboard, keys, tx, rx, ⟨mode, draft⟩, settings⟩
  cases token with
  | alt a =>
    -- a command is worth no bytes, whatever the mode
    have none : offers (⟨terminal, keyboard, keys, tx, rx, ⟨mode, draft⟩, settings⟩ :
        Console cols rows) (.alt a) = [] := by
      cases mode <;> rfl
    rw [none]
    cases a <;> cases mode <;> rfl
  | byte | special =>
    cases mode with
    | online => rfl
    | loopback => rfl
    | config =>
      unfold Router.dispatch Router.deliver
      dsimp only
      split <;> rfl

/-- **A token reaches the ring through its offers alone.** -/
theorem tx_routeKey [SerialLink ℓ] [Bell β] [ConfigSurface σ cols rows]
    (s : Console cols rows × Devices ℓ κ β σ) (token : KeyToken) :
    (routeKey s token).1.tx = s.1.tx.pushAll (offers s.1 token) := by
  obtain ⟨c, d⟩ := s
  rw [← tx_dispatch c token
    (⟨c.terminal, c.tx, d.bell, d.surface⟩ : Endpoints β σ cols rows txSlots), routeKey]
  rcases c.router.dispatch token c.settings
    (⟨c.terminal, c.tx, d.bell, d.surface⟩ : Endpoints β σ cols rows txSlots) with
    ⟨router, e, event⟩
  rcases event with _ | ⟨mode⟩ | ⟨settings⟩ <;> rfl

/-- A token asks nothing of the link but other settings. -/
theorem routeCalls_reconfigure [SerialLink ℓ] [Bell β] [ConfigSurface σ cols rows]
    (s : Console cols rows × Devices ℓ κ β σ) (token : KeyToken) {request : LinkCall}
    (h : request ∈ routeCalls s token) : ∃ config done, request = .reconfigure config done := by
  obtain ⟨c, d⟩ := s
  rw [routeCalls_eq] at h
  revert h
  cases adopted? (c.router.dispatch token c.settings
    (⟨c.terminal, c.tx, d.bell, d.surface⟩ : Endpoints β σ cols rows txSlots)).2.2 with
  | none => exact fun h => absurd h List.not_mem_nil
  | some settings =>
    intro h
    by_cases differ : settings.serial ≠ c.settings.serial
    · rw [Option.elim, if_pos differ] at h
      exact ⟨_, _, List.mem_singleton.1 h⟩
    · rw [Option.elim, if_neg differ] at h
      exact absurd h List.not_mem_nil

/-! ## Every history is a chain of steps -/

theorem steps_offerHistory (tx : Ring UInt8 slots) (items : List UInt8) :
    Steps (idle tx.toList) (offerHistory tx items) (idle (tx.pushAll items).toList) := by
  induction items generalizing tx with
  | nil => exact .nil _
  | cons b rest ih =>
    refine .cons ?_ (ih (tx.push b).1)
    rw [Ring.snd_push, Ring.toList_push]
    by_cases room : tx.toList.length < slots - 1
    · rw [if_pos room, decide_eq_true room]
      exact .keep tx.toList false b
    · rw [if_neg room, decide_eq_false room]
      exact .drop tx.toList false b

/-- One round of the loop appends two moments, and the second is there only when the
first has granted it. -/
theorem steps_transmitHistory [SerialLink ℓ] (n : Nat) (tx : Ring UInt8 slots) (link : ℓ) :
    Steps (idle tx.toList) (transmitHistory n tx link)
      (idle (transmit n tx link).1.toList) := by
  -- on the rounds allowed; each begins with nothing granted
  induction n generalizing tx link with
  | zero =>
    rw [transmitHistory, transmit]
    exact .nil _
  | succ n ih =>
    rw [transmitHistory, transmit_succ]
    cases hpeek : tx.peek? with
    | none => exact .nil _
    | some b =>
      obtain ⟨rest, hqueue⟩ : ∃ rest, tx.toList = b :: rest := by
        rw [Ring.peek?_eq] at hpeek
        exact List.head?_eq_some_iff.1 hpeek
      -- that there is a byte to send is why a delivery is a legal step
      dsimp only
      have asked := Step.ask tx.toList false (SerialLink.ready link).2
      by_cases hready : (SerialLink.ready link).2 = .ready
      · rw [if_pos hready, if_pos hready, hready]
        rw [hready] at asked
        by_cases htaken : (SerialLink.send (SerialLink.ready link).1 b).2 = .taken
        · rw [if_pos htaken, if_pos htaken]
          have hpop : tx.pop.1.toList = rest := by
            rw [tx.pop_eq.2, hqueue, List.tail_cons]
          refine .cons asked (.cons ?_ (ih tx.pop.1 _))
          rw [hpop, hqueue]
          exact .deliver b rest
        · rw [if_neg htaken, if_neg htaken]
          refine .cons asked (.single ?_)
          rw [hqueue]
          exact .refuse b rest _ htaken
      · rw [if_neg hready, if_neg hready]
        rw [beq_false_of_ne hready] at asked
        exact .single asked

/-- Requests for other settings leave the queue alone. -/
theorem steps_reconfigure (queue : List UInt8) (calls : List LinkCall)
    (h : ∀ request ∈ calls, ∃ config done, request = .reconfigure config done) :
    Steps (idle queue) (calls.map fun request => ⟨.call request, queue⟩) (idle queue) := by
  induction calls with
  | nil => exact .nil _
  | cons request calls ih =>
    obtain ⟨config, done, rfl⟩ := h request List.mem_cons_self
    refine .cons (.reconfigure queue false config done) (ih ?_)
    exact fun other member => h other (List.mem_cons_of_mem _ member)

section Chains

variable [SerialLink ℓ] [Bell β] [ConfigSurface σ cols rows]

theorem steps_routeHistory (s : Console cols rows × Devices ℓ κ β σ) (token : KeyToken) :
    Steps (idle s.1.tx.toList) (routeHistory s token)
      (idle (routeKey s token).1.tx.toList) := by
  have offered := steps_offerHistory s.1.tx (offers s.1 token)
  rw [← tx_routeKey] at offered
  exact offered.append (steps_reconfigure _ _ fun _ => routeCalls_reconfigure s token)

theorem steps_routeAllHistory (s : Console cols rows × Devices ℓ κ β σ)
    (tokens : List KeyToken) :
    Steps (idle s.1.tx.toList) (routeAllHistory s tokens)
      (idle (routeAll s tokens).1.tx.toList) := by
  induction tokens generalizing s with
  | nil => exact .nil _
  | cons token rest ih => exact (steps_routeHistory s token).append (ih (routeKey s token))

variable [KeyboardHost κ]

theorem steps_stimulusHistory (s : Console cols rows × Devices ℓ κ β σ) (e : Stimulus) :
    Steps (idle s.1.tx.toList) (stimulusHistory s e) (idle (stimulate s e).1.tx.toList) := by
  cases e with
  | receive b => exact .nil _
  | poll now =>
    have routed := steps_routeAllHistory
      ((s.1.beforeRouting now s.2).1.takeKeys.1, (s.1.beforeRouting now s.2).2)
      (s.1.beforeRouting now s.2).1.takeKeys.2
    have unmoved : (s.1.beforeRouting now s.2).1.takeKeys.1.tx = s.1.tx :=
      tx_beforeRouting s.1 now s.2
    rw [unmoved] at routed
    exact routed.append (steps_transmitHistory _ _ _)

/-- **Every run is a chain of steps.** -/
theorem steps_history (s : Console cols rows × Devices ℓ κ β σ) (stimuli : List Stimulus) :
    Steps (idle s.1.tx.toList) (history s stimuli) (idle (run s stimuli).1.tx.toList) := by
  induction stimuli generalizing s with
  | nil => exact .nil _
  | cons e rest ih => exact (steps_stimulusHistory s e).append (ih (stimulate s e))

end Chains

/-! ## The history and the recorder agree -/

theorem requests_offerHistory (tx : Ring UInt8 slots) (items : List UInt8) :
    requests (offerHistory tx items) = [] := by
  induction items generalizing tx with
  | nil => rfl
  | cons b rest ih => exact ih (tx.push b).1

theorem requests_calls (queue : List UInt8) (calls : List LinkCall) :
    requests (calls.map fun request => ⟨.call request, queue⟩) = calls := by
  induction calls with
  | nil => rfl
  | cons request calls ih => exact congrArg (request :: ·) ih

theorem requests_transmitHistory [SerialLink ℓ] (n : Nat) (tx : Ring UInt8 slots) (link : ℓ) :
    requests (transmitHistory n tx link) = transmitCalls n tx link := by
  induction n generalizing tx link with
  | zero => rfl
  | succ n ih =>
    rw [transmitHistory, transmitCalls_succ]
    cases tx.peek? with
    | none => rfl
    | some b =>
      dsimp only
      by_cases hready : (SerialLink.ready link).2 = .ready
      · by_cases htaken : (SerialLink.send (SerialLink.ready link).1 b).2 = .taken
        · rw [if_pos hready, if_pos hready, if_pos htaken, if_pos htaken, hready, htaken]
          exact congrArg (fun rest => .ready .ready :: .send b .taken :: rest) (ih _ _)
        · rw [if_pos hready, if_pos hready, if_neg htaken, if_neg htaken]
          rfl
      · rw [if_neg hready, if_neg hready]
        rfl

section Agreement

variable [SerialLink ℓ] [Bell β] [ConfigSurface σ cols rows]

theorem requests_routeAllHistory (s : Console cols rows × Devices ℓ κ β σ)
    (tokens : List KeyToken) :
    requests (routeAllHistory s tokens) = routeAllCalls s tokens := by
  induction tokens generalizing s with
  | nil => rfl
  | cons token rest ih =>
    rw [routeAllHistory, routeHistory, requests_append, requests_append, requests_offerHistory,
      requests_calls, List.nil_append, ih, routeAllCalls_cons]

variable [KeyboardHost κ]

/-- **The requests of the history are what a recorder around the link writes down.** -/
theorem requests_history (s : Console cols rows × Devices ℓ κ β σ) (stimuli : List Stimulus) :
    requests (history s stimuli) = linkCalls s stimuli := by
  induction stimuli generalizing s with
  | nil => rfl
  | cons e rest ih =>
    rw [history, requests_append, ih, linkCalls_cons]
    cases e with
    | receive b => rfl
    | poll now =>
      rw [stimulusHistory, requests_append, requests_routeAllHistory, requests_transmitHistory]
      rfl

end Agreement

/-! ## Every attempt ends -/

theorem transmit_of_empty [SerialLink ℓ] (n : Nat) {tx : Ring UInt8 slots} (link : ℓ)
    (h : tx.toList = []) : transmit n tx link = (tx, link) := by
  rcases n with _ | n
  · rfl
  · have none : tx.peek? = none := by
      rw [Ring.peek?_eq, h]
      rfl
    rw [transmit_succ, none]

/-- The number of rounds allowed is no limit once it reaches the number of bytes that
wait. -/
theorem transmit_of_size_le [SerialLink ℓ] {m n : Nat} {tx : Ring UInt8 slots} (link : ℓ)
    (hm : tx.size ≤ m) (hn : tx.size ≤ n) : transmit m tx link = transmit n tx link := by
  induction m generalizing n tx link with
  | zero =>
    have empty : tx.toList = [] := by
      rw [← Ring.isEmpty_iff, Ring.isEmpty_iff_size]
      omega
    rw [transmit_of_empty 0 link empty, transmit_of_empty n link empty]
  | succ m ih =>
    cases hqueue : tx.toList with
    | nil => rw [transmit_of_empty _ link hqueue, transmit_of_empty _ link hqueue]
    | cons b rest =>
      have hsize : tx.size = rest.length + 1 := by
        rw [← Ring.length_toList, hqueue, List.length_cons]
      have hpop : tx.pop.1.size = rest.length := by
        rw [← Ring.length_toList, tx.pop_eq.2, hqueue, List.tail_cons]
      -- a byte waits, so the other limit allows a round as well
      obtain ⟨n, rfl⟩ : ∃ k, n = k + 1 := ⟨n - 1, by omega⟩
      have hrest : ∀ link : ℓ, transmit m tx.pop.1 link = transmit n tx.pop.1 link := by
        intro link
        exact ih link (by omega) (by omega)
      rw [transmit_succ, transmit_succ]
      simp only [hrest]

/-- A transmission asks and offers nothing to the ring. -/
theorem request_of_mem_transmitHistory [SerialLink ℓ] {n : Nat} {tx : Ring UInt8 slots} {link : ℓ}
    {m : Moment} (h : m ∈ transmitHistory n tx link) : ∃ request, m.event = .call request := by
  induction n generalizing tx link with
  | zero => exact absurd h List.not_mem_nil
  | succ n ih =>
    rw [transmitHistory] at h
    cases hpeek : tx.peek? with
    | none =>
      rw [hpeek] at h
      exact absurd h List.not_mem_nil
    | some b =>
      simp only [hpeek, List.mem_cons] at h
      rcases h with rfl | h
      · exact ⟨_, rfl⟩
      · split at h
        · split at h
          · rcases List.mem_cons.1 h with rfl | later
            · exact ⟨_, rfl⟩
            · exact ih later
          · rw [List.mem_singleton.1 h]
            exact ⟨_, rfl⟩
        · exact absurd h List.not_mem_nil

theorem kept_lost_transmitHistory [SerialLink ℓ] (n : Nat) (tx : Ring UInt8 slots) (link : ℓ) :
    kept (transmitHistory n tx link) = [] ∧ lost (transmitHistory n tx link) = [] :=
  kept_lost_of_requests fun _ member => request_of_mem_transmitHistory member

/-- An attempt hands over no more bytes than wait when it begins. -/
theorem length_taken_transmitHistory [SerialLink ℓ] (n : Nat) (tx : Ring UInt8 slots) (link : ℓ) :
    (taken (transmitHistory n tx link)).length ≤ tx.size := by
  -- nothing is offered meanwhile, so what is taken was there before
  have whole := congrArg List.length (steps_transmitHistory n tx link).conserves
  rw [(kept_lost_transmitHistory n tx link).1, List.append_nil, List.length_append] at whole
  change tx.toList.length = _ at whole
  rw [Ring.length_toList] at whole
  omega

/-! ## The promise -/

section Promise

variable [SerialLink ℓ] [KeyboardHost κ] [Bell β] [ConfigSurface σ cols rows]

/-- **Nothing is lost, doubled or put out of order on the way to the host**, however
the link behaves. At every point of every run the bytes it took, followed by the
bytes that wait, are the bytes that the ring kept. A byte is sent only when it is the
oldest one and the link has just said that it is ready, it leaves the ring only when
it was taken, and an attempt ends by itself. -/
theorem transmission_conserves (settings : Settings) (layout : Layout) (d : Devices ℓ κ β σ)
    (stimuli : List Stimulus) :
    let s := started cols rows settings layout d
    let h := history s stimuli
    requests h = linkCalls s stimuli ∧
    (∀ earlier m later, h = earlier ++ m :: later →
      taken (earlier ++ [m]) ++ m.queue = kept (earlier ++ [m])) ∧
    taken h ++ (run s stimuli).1.tx.toList = kept h ∧
    (∀ earlier b answer queue later,
      h = earlier ++ ⟨.call (.send b answer), queue⟩ :: later →
        ∃ before waiting, earlier = before ++ [⟨.call (.ready .ready), b :: waiting⟩] ∧
          queue = if answer = .taken then waiting else b :: waiting) ∧
    (∀ earlier answer queue later,
      h = earlier ++ ⟨.call (.ready answer), queue⟩ :: later →
        queue = (earlier.getLast?.map Moment.queue).getD []) ∧
    ∀ (n : Nat) (tx : Ring UInt8 txSlots) (link : ℓ),
      (taken (transmitHistory n tx link)).length ≤ tx.size ∧
        (tx.size ≤ n → transmit n tx link = transmit tx.size tx link) := by
  intro s h
  have chain : Steps (idle []) h (idle (run s stimuli).1.tx.toList) := by
    have begun : s.1.tx.toList = [] := Ring.toList_empty (by decide)
    rw [← begun]
    exact steps_history s stimuli
  refine ⟨requests_history s stimuli, ?_, ?_, ?_, ?_, ?_⟩
  · intro earlier m later split
    rw [split] at chain
    exact chain.conserves_at
  · exact chain.conserves.symm
  · intro earlier b answer queue later split
    rw [split] at chain
    exact chain.send_at
  · intro earlier answer queue later split
    rw [split] at chain
    exact chain.ready_at
  · intro n tx link
    refine ⟨length_taken_transmitHistory n tx link, ?_⟩
    intro enough
    exact transmit_of_size_le link enough (Nat.le_refl _)

end Promise

end Console

end SerialTerminal
