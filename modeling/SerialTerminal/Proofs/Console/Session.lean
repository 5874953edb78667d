/-
Edits of the settings, from the key that opens the surface to the key that closes it.

The settings in effect are kept in one place and the draft in another, and the surface
keeps a state of its own. What ties them together is a history of the keys that were
routed (`Console.keyHistory`): each moment has the token, what the surface was asked and
answered, what the link was asked, and the mode and the two settings afterwards. The
questions are not taken from the text of the router. They are what recorders around
surface and link write down (`run_observing`, `requests_keyHistory`).

`Session.Step` says once what a key can do: open the surface on the settings in effect,
hand it a key and keep the draft that it gives back, put that draft into effect when it is
done, or leave everything as it is. **Every history is a chain of such steps**
(`steps_keyHistory`). What an edit promises is then shown about chains alone: behind a key
that ends an edit lies the key that opened it, and between them the surface was given
every key typed, each with the draft that the one before had left (`EditedFrom`).
-/
import Mathlib.Data.List.Induction
import SerialTerminal.Proofs.Console.Transmit
import SerialTerminal.Proofs.Router.Routing

set_option autoImplicit false

namespace SerialTerminal

/-- The link is asked for other settings. -/
def LinkCall.isReconfigure : LinkCall → Bool
  | reconfigure _ _ => true
  | _ => false

/-! ## The surface under observation -/

/-- A request made to a configuration surface, with the part of its answer that is not
drawn. -/
inductive SurfaceCall where
  | enter (settings : Settings)
  | key (token : KeyToken) (draft edited : Settings) (done : Bool)
  deriving DecidableEq

namespace SurfaceCall

/-- The surface says that it is done. -/
def isDone : SurfaceCall → Bool
  | enter _ => false
  | key _ _ _ done => done

/-- The key that the surface is given. -/
def key? : SurfaceCall → Option KeyToken
  | enter _ => none
  | key token _ _ _ => some token

end SurfaceCall

/-- A surface and what was asked of it so far. -/
structure SurfaceRecorder (σ : Type) where
  surface : σ
  /-- Oldest first. -/
  log : List SurfaceCall

instance {σ : Type} {cols rows : Nat} [ConfigSurface σ cols rows] :
    ConfigSurface (SurfaceRecorder σ) cols rows where
  enter r settings t :=
    let opened := ConfigSurface.enter r.surface settings t
    (⟨opened.1, r.log ++ [.enter settings]⟩, opened.2)
  key r token draft t :=
    let reply := ConfigSurface.key r.surface token draft t
    { surface := ⟨reply.surface, r.log ++ [.key token draft reply.draft reply.done]⟩
      draft := reply.draft
      terminal := reply.terminal
      done := reply.done }

variable {ℓ κ β σ : Type} {cols rows slots : Nat}

namespace SurfaceRecorder

/-- A log in front of the one that there is. -/
def prepend (log : List SurfaceCall) (r : SurfaceRecorder σ) : SurfaceRecorder σ :=
  ⟨r.surface, log ++ r.log⟩

variable [ConfigSurface σ cols rows]

theorem isHom_surface :
    ConfigSurface.IsHom cols rows (surface : SurfaceRecorder σ → σ) :=
  ⟨fun _ _ _ => rfl, fun _ _ _ _ => rfl⟩

theorem isHom_prepend (log : List SurfaceCall) :
    ConfigSurface.IsHom cols rows (prepend log : SurfaceRecorder σ → SurfaceRecorder σ) := by
  have later : ∀ (surface : σ) (old : List SurfaceCall) (call : SurfaceCall),
      (⟨surface, (log ++ old) ++ [call]⟩ : SurfaceRecorder σ) =
        prepend log ⟨surface, old ++ [call]⟩ := by
    intro surface old call
    rw [prepend, List.append_assoc]
  refine ⟨?_, ?_⟩
  · intro r settings t
    exact Prod.ext (later _ r.log _) rfl
  · intro r token draft t
    let reply := ConfigSurface.key r.surface token draft t
    exact congrArg
      (fun asked => (⟨asked, reply.draft, reply.terminal, reply.done⟩ :
        ConfigReply (SurfaceRecorder σ) cols rows))
      (later reply.surface r.log (.key token draft reply.draft reply.done))

end SurfaceRecorder

def Endpoints.observing (e : Endpoints β σ cols rows slots) (log : List SurfaceCall) :
    Endpoints β (SurfaceRecorder σ) cols rows slots where
  terminal := e.terminal
  tx := e.tx
  bell := e.bell
  surface := ⟨e.surface, log⟩

/-- The same devices with a recorder put around the surface. -/
def Devices.observing (d : Devices ℓ κ β σ) (log : List SurfaceCall) :
    Devices ℓ κ β (SurfaceRecorder σ) where
  link := d.link
  keyboard := d.keyboard
  bell := d.bell
  surface := ⟨d.surface, log⟩

/-- What the router asks of the surface for a token. -/
def Router.surfaceCalls [Bell β] [ConfigSurface σ cols rows] (r : Router) (token : KeyToken)
    (settings : Settings) (e : Endpoints β σ cols rows slots) : List SurfaceCall :=
  (r.dispatch token settings (e.observing [])).2.1.surface.log

/-- The router cannot tell a recorder from the surface inside it. -/
theorem Router.dispatch_observing [Bell β] [ConfigSurface σ cols rows] (r : Router)
    (token : KeyToken) (settings : Settings) (e : Endpoints β σ cols rows slots)
    (log : List SurfaceCall) :
    r.dispatch token settings (e.observing log) =
      let out := r.dispatch token settings e
      (out.1, out.2.1.observing (log ++ r.surfaceCalls token settings e), out.2.2) := by
  have bare := r.dispatch_map Bell.isHom_id SurfaceRecorder.isHom_surface token settings
    (e.observing [])
  have more := r.dispatch_map Bell.isHom_id (SurfaceRecorder.isHom_prepend log) token settings
    (e.observing [])
  have before : (e.observing []).map id (SurfaceRecorder.prepend log) = e.observing log := by
    rw [Endpoints.map, Endpoints.observing, SurfaceRecorder.prepend, List.append_nil]
    rfl
  have off : (e.observing []).map id SurfaceRecorder.surface = e := rfl
  rw [before] at more
  rw [off] at bare
  rw [more, bare]
  rfl

/-! ## What a key can do -/

/-- What an edit of the settings turns on. -/
structure Session where
  mode : Mode
  draft : Settings
  /-- The settings in effect. -/
  settings : Settings
  deriving DecidableEq

/-- A routed key, what was asked because of it, and what it left behind. -/
structure KeyMoment where
  token : KeyToken
  calls : List SurfaceCall
  requests : List LinkCall
  after : Session

/-- The key made the surface say that it is done. -/
def KeyMoment.endsEdit (m : KeyMoment) : Bool :=
  m.calls.any SurfaceCall.isDone

namespace Session

/-- **All that a key can do to an edit.** -/
inductive Step (s : Session) : KeyMoment → Prop where
  /-- The surface is opened on the settings in effect, also when it is open already. -/
  | opened :
      Step s ⟨.alt .config, [.enter s.settings], [], ⟨.config, s.settings, s.settings⟩⟩
  | switched (mode : Mode) (outside : s.mode ≠ .config) (still : mode ≠ .config) :
      Step s ⟨.alt .toggleLocal, [], [], ⟨mode, s.draft, s.settings⟩⟩
  | ignored (a : AltKey) (other : a ≠ .config) (editing : a = .toggleLocal → s.mode = .config) :
      Step s ⟨.alt a, [], [], s⟩
  | passed (token : KeyToken) (plain : token.isAlt = false) (outside : s.mode ≠ .config) :
      Step s ⟨token, [], [], s⟩
  | edited (token : KeyToken) (plain : token.isAlt = false) (inside : s.mode = .config)
      (draft : Settings) :
      Step s ⟨token, [.key token s.draft draft false], [], ⟨.config, draft, s.settings⟩⟩
  /-- The draft takes effect, and the link is asked if the line settings differ. -/
  | finished (token : KeyToken) (plain : token.isAlt = false) (inside : s.mode = .config)
      (draft : Settings) (requests : List LinkCall)
      (asked : if draft.serial ≠ s.settings.serial then
          ∃ done, requests = [.reconfigure draft.serial done] else requests = []) :
      Step s ⟨token, [.key token s.draft draft true], requests, ⟨.online, draft, draft⟩⟩

/-- Where a history leads. -/
def after (s : Session) (h : List KeyMoment) : Session :=
  h.foldl (fun _ m => m.after) s

def Steps : Session → List KeyMoment → Prop
  | _, [] => True
  | s, m :: rest => s.Step m ∧ m.after.Steps rest

theorem after_append (s : Session) (g h : List KeyMoment) :
    s.after (g ++ h) = (s.after g).after h :=
  List.foldl_append

theorem steps_append (s : Session) (g h : List KeyMoment) :
    s.Steps (g ++ h) ↔ s.Steps g ∧ (s.after g).Steps h := by
  induction g generalizing s with
  | nil => exact (true_and (s.Steps h)).symm ▸ Iff.rfl
  | cons m g ih =>
    rw [List.cons_append, Steps, ih, Steps, and_assoc]
    rfl

end Session

/-- Each key was given the draft that the one before had left, from the first draft to the
last one. -/
inductive EditedFrom : Settings → List SurfaceCall → Settings → Prop where
  | nil (draft) : EditedFrom draft [] draft
  | key {draft edited last rest} (token done) (later : EditedFrom edited rest last) :
      EditedFrom draft (.key token draft edited done :: rest) last

theorem EditedFrom.snoc {first draft : Settings} {calls : List SurfaceCall}
    (h : EditedFrom first calls draft) (token : KeyToken) (edited : Settings) (done : Bool) :
    EditedFrom first (calls ++ [.key token draft edited done]) edited := by
  induction h with
  | nil draft => exact .key token done (.nil edited)
  | key token' done' _ ih => exact .key token' done' ih

/-! ## Chains -/

namespace Session

variable {s : Session} {h : List KeyMoment}

/-- The edit that is open at the end of a history: it began with `opened`, and neither was
it begun anew nor ended since. -/
structure Open (s : Session) (h g : List KeyMoment) (opened : KeyMoment)
    (edits : List KeyMoment) : Prop where
  split : h = g ++ opened :: edits
  begun : opened.token = .alt .config
  unbroken : ∀ e ∈ edits, e.token ≠ .alt .config ∧ e.endsEdit = false
  /-- The draft is what the keys have made of the settings in effect at its beginning. -/
  draft : EditedFrom (s.after g).settings (edits.flatMap KeyMoment.calls) (s.after h).draft
  /-- The surface was given all that was typed, but for the commands. -/
  keys : (edits.flatMap KeyMoment.calls).filterMap SurfaceCall.key? =
    (edits.map KeyMoment.token).filter fun t => !t.isAlt

/-- **In the configuration mode an edit is open.** -/
theorem Steps.exists_open (chain : s.Steps h) (outside : s.mode ≠ .config)
    (inside : (s.after h).mode = .config) : ∃ g opened edits, Open s h g opened edits := by
  -- on the last moment: it has opened the edit, or the edit was open before it
  induction h using List.reverseRecOn with
  | nil => exact absurd inside outside
  | append_singleton h m ih =>
    obtain ⟨earlier, step, -⟩ := (steps_append s h [m]).1 chain
    have last : s.after (h ++ [m]) = m.after := after_append s h [m]
    rw [last] at inside
    cases step with
    | opened =>
      refine ⟨h, _, [], rfl, rfl, List.forall_mem_nil _, ?_, rfl⟩
      rw [last]
      exact .nil _
    | switched mode _ still => exact absurd inside still
    | passed token _ out => exact absurd inside out
    | finished => cases inside
    | ignored a other =>
      obtain ⟨g, opened, edits, split, begun, unbroken, draft, keys⟩ := ih earlier inside
      refine ⟨g, opened, edits ++ [⟨.alt a, [], [], s.after h⟩], ?_, begun, ?_, ?_, ?_⟩
      · rw [split, List.append_assoc, List.cons_append]
      · refine List.forall_mem_append.2 ⟨unbroken, List.forall_mem_singleton.2 ⟨?_, rfl⟩⟩
        exact fun same => other (KeyToken.alt.inj same)
      · rw [last, List.flatMap_append]
        exact (List.append_nil (edits.flatMap KeyMoment.calls)).symm ▸ draft
      · rw [List.flatMap_append, List.filterMap_append, keys, List.map_append, List.filter_append]
        rfl
    | edited token plain within edited =>
      obtain ⟨g, opened, edits, split, begun, unbroken, draft, keys⟩ := ih earlier within
      refine ⟨g, opened, edits ++ [⟨token, [.key token (s.after h).draft edited false], [],
        ⟨.config, edited, (s.after h).settings⟩⟩], ?_, begun, ?_, ?_, ?_⟩
      · rw [split, List.append_assoc, List.cons_append]
      · refine List.forall_mem_append.2 ⟨unbroken, List.forall_mem_singleton.2 ⟨?_, rfl⟩⟩
        rintro rfl
        cases plain
      · rw [last, List.flatMap_append]
        exact draft.snoc token edited false
      · rw [List.flatMap_append, List.filterMap_append, keys, List.map_append, List.filter_append]
        simp [SurfaceCall.key?, plain]

/-- What a key does in the light of what came before it. -/
structure Atomic (s : Session) (earlier : List KeyMoment) (m : KeyMoment) : Prop where
  /-- The settings in effect change only when the surface says that it is done. -/
  kept : m.after.settings ≠ (s.after earlier).settings → m.endsEdit = true
  /-- Then the mode is the online one, and the settings are what the keys typed since the
  edit was begun have made of the settings in effect at that time. -/
  adopted : m.endsEdit = true → m.after.mode = .online ∧
    ∃ g opened edits, Open s earlier g opened edits ∧
      EditedFrom (s.after g).settings ((edits ++ [m]).flatMap KeyMoment.calls) m.after.settings ∧
      ((edits ++ [m]).flatMap KeyMoment.calls).filterMap SurfaceCall.key? =
        ((edits ++ [m]).map KeyMoment.token).filter fun t => !t.isAlt
  /-- An edit begins with the settings in effect, also when one is open. -/
  begun : m.token = .alt .config →
    m.calls = [.enter (s.after earlier).settings] ∧
      m.after = ⟨.config, (s.after earlier).settings, (s.after earlier).settings⟩
  /-- The other commands mean nothing to an edit. -/
  ignored : (s.after earlier).mode = .config →
    ∀ a, m.token = .alt a → a ≠ .config → m.calls = [] ∧ m.after = s.after earlier
  /-- The link is asked for other line settings once, or not at all. -/
  reconfigured :
    if m.endsEdit = true ∧ m.after.settings.serial ≠ (s.after earlier).settings.serial then
      ∃ done, m.requests = [.reconfigure m.after.settings.serial done]
    else m.requests = []

theorem Steps.atomic {earlier later : List KeyMoment} {m : KeyMoment}
    (chain : s.Steps (earlier ++ m :: later)) (outside : s.mode ≠ .config) :
    Atomic s earlier m := by
  obtain ⟨front, step, -⟩ := (steps_append s earlier (m :: later)).1 chain
  have noCommand : ∀ {t : KeyToken} (a : AltKey), t.isAlt = false → t ≠ .alt a := by
    rintro t a plain rfl
    cases plain
  have unasked : ∀ m : KeyMoment, m.endsEdit = false → m.requests = [] →
      if m.endsEdit = true ∧ m.after.settings.serial ≠ (s.after earlier).settings.serial then
        ∃ done, m.requests = [.reconfigure m.after.settings.serial done]
      else m.requests = [] := by
    intro m goesOn none
    rw [if_neg fun both => Bool.noConfusion (goesOn.symm.trans both.1)]
    exact none
  -- only the last case changes the settings
  cases step with
  | opened =>
    refine ⟨fun changed => absurd rfl changed, nofun, fun _ => ⟨rfl, rfl⟩, ?_, unasked _ rfl rfl⟩
    intro _ a same other
    exact absurd (KeyToken.alt.inj same).symm other
  | switched mode out still =>
    exact ⟨fun changed => absurd rfl changed, nofun, nofun, fun inside => absurd inside out,
      unasked _ rfl rfl⟩
  | ignored a other =>
    refine ⟨fun changed => absurd rfl changed, nofun, ?_, fun _ _ _ _ => ⟨rfl, rfl⟩,
      unasked _ rfl rfl⟩
    intro same
    exact absurd (KeyToken.alt.inj same) other
  | passed token plain out =>
    exact ⟨fun changed => absurd rfl changed, nofun, fun same => absurd same (noCommand _ plain),
      fun inside => absurd inside out, unasked _ rfl rfl⟩
  | edited token plain within draft =>
    exact ⟨fun changed => absurd rfl changed, nofun, fun same => absurd same (noCommand _ plain),
      fun _ a same => absurd same (noCommand a plain), unasked _ rfl rfl⟩
  | finished token plain within draft requests asked =>
    refine ⟨fun _ => rfl, ?_, fun same => absurd same (noCommand _ plain),
      fun _ a same => absurd same (noCommand a plain), ?_⟩
    · intro _
      obtain ⟨g, opened, edits, edit⟩ := front.exists_open outside within
      refine ⟨rfl, g, opened, edits, edit, ?_, ?_⟩
      · rw [List.flatMap_append]
        exact edit.draft.snoc token draft true
      · rw [List.flatMap_append, List.filterMap_append, edit.keys, List.map_append,
          List.filter_append]
        simp [SurfaceCall.key?, plain]
    · have ended : (⟨token, [.key token (s.after earlier).draft draft true], requests,
          ⟨.online, draft, draft⟩⟩ : KeyMoment).endsEdit = true := rfl
      simp only [ended, true_and]
      exact asked

end Session

namespace Console

/-- Where the console stands with the settings. -/
def session (c : Console cols rows) : Session :=
  ⟨c.router.mode, c.router.draft, c.settings⟩

/-! ## The history of a run -/

section History

variable [SerialLink ℓ] [Bell β] [ConfigSurface σ cols rows]

/-- What a token makes the router ask of the surface. -/
def keyCalls (s : Console cols rows × Devices ℓ κ β σ) (token : KeyToken) : List SurfaceCall :=
  s.1.router.surfaceCalls token s.1.settings
    (⟨s.1.terminal, s.1.tx, s.2.bell, s.2.surface⟩ : Endpoints β σ cols rows txSlots)

def keyMoment (s : Console cols rows × Devices ℓ κ β σ) (token : KeyToken) : KeyMoment :=
  ⟨token, keyCalls s token, routeCalls s token, (routeKey s token).1.session⟩

def keyMoments (s : Console cols rows × Devices ℓ κ β σ) : List KeyToken → List KeyMoment
  | [] => []
  | token :: rest => keyMoment s token :: keyMoments (routeKey s token) rest

variable [KeyboardHost κ]

/-- A stimulus: only a turn of the loop routes keys. -/
def stimulusMoments (s : Console cols rows × Devices ℓ κ β σ) : Stimulus → List KeyMoment
  | .receive _ => []
  | .poll now =>
    let before := s.1.beforeRouting now s.2
    keyMoments (before.1.takeKeys.1, before.2) before.1.takeKeys.2

/-- The keys that were routed during a run. -/
def keyHistory (s : Console cols rows × Devices ℓ κ β σ) : List Stimulus → List KeyMoment
  | [] => []
  | e :: rest => stimulusMoments s e ++ keyHistory (stimulate s e) rest

/-- What a recorder around the surface is asked during a run. -/
def surfaceCalls (s : Console cols rows × Devices ℓ κ β σ) (stimuli : List Stimulus) :
    List SurfaceCall :=
  (run (s.1, s.2.observing []) stimuli).2.surface.log

end History

/-! ## The history and the recorders agree -/

section Agreement

variable [SerialLink ℓ] [Bell β] [ConfigSurface σ cols rows]

theorem routeKey_observing (s : Console cols rows × Devices ℓ κ β σ) (token : KeyToken)
    (log : List SurfaceCall) :
    routeKey (s.1, s.2.observing log) token =
      ((routeKey s token).1, (routeKey s token).2.observing (log ++ keyCalls s token)) := by
  obtain ⟨c, d⟩ := s
  have observed := c.router.dispatch_observing token c.settings
    (⟨c.terminal, c.tx, d.bell, d.surface⟩ : Endpoints β σ cols rows txSlots) log
  unfold keyCalls routeKey
  dsimp only [Devices.observing, Endpoints.observing] at observed ⊢
  rw [observed]
  rcases (c.router.dispatch token c.settings
    (⟨c.terminal, c.tx, d.bell, d.surface⟩ : Endpoints β σ cols rows txSlots)) with
    ⟨router, e, event⟩
  rcases event with _ | ⟨mode⟩ | ⟨settings⟩ <;> rfl

theorem routeAll_observing (s : Console cols rows × Devices ℓ κ β σ) (tokens : List KeyToken)
    (log : List SurfaceCall) :
    routeAll (s.1, s.2.observing log) tokens =
      ((routeAll s tokens).1, (routeAll s tokens).2.observing
        (log ++ (keyMoments s tokens).flatMap KeyMoment.calls)) := by
  induction tokens generalizing s log with
  | nil =>
    rw [keyMoments, List.flatMap_nil, List.append_nil]
    rfl
  | cons token rest ih =>
    rw [routeAll_cons, routeAll_cons, routeKey_observing, ih, keyMoments, List.flatMap_cons,
      List.append_assoc]
    rfl

variable [KeyboardHost κ]

theorem beforeTransmit_observing (c : Console cols rows) (now : Instant) (d : Devices ℓ κ β σ)
    (log : List SurfaceCall) :
    c.beforeTransmit now (d.observing log) =
      ((c.beforeTransmit now d).1, (c.beforeTransmit now d).2.observing
        (log ++ (stimulusMoments (c, d) (.poll now)).flatMap KeyMoment.calls)) := by
  have around : ∀ d : Devices ℓ κ β σ, d.observing log = d.map id id (⟨·, log⟩) := fun _ => rfl
  rw [beforeTransmit, around, beforeRouting_map Bell.isHom_id, ← around]
  exact routeAll_observing ((c.beforeRouting now d).1.takeKeys.1, (c.beforeRouting now d).2) _ log

theorem stimulate_observing (s : Console cols rows × Devices ℓ κ β σ) (e : Stimulus)
    (log : List SurfaceCall) :
    stimulate (s.1, s.2.observing log) e =
      ((stimulate s e).1, (stimulate s e).2.observing
        (log ++ (stimulusMoments s e).flatMap KeyMoment.calls)) := by
  cases e with
  | receive b =>
    rw [stimulusMoments, List.flatMap_nil, List.append_nil]
    rfl
  | poll now =>
    rw [stimulate, stimulate, poll_eq, poll_eq, beforeTransmit_observing]
    generalize s.1.beforeTransmit now s.2 = sending
    rfl

/-- **A console cannot tell a recorder from the surface inside it**, and what the recorder
writes down is in the history. -/
theorem run_observing (s : Console cols rows × Devices ℓ κ β σ) (stimuli : List Stimulus)
    (log : List SurfaceCall) :
    run (s.1, s.2.observing log) stimuli =
      ((run s stimuli).1, (run s stimuli).2.observing
        (log ++ (keyHistory s stimuli).flatMap KeyMoment.calls)) := by
  induction stimuli generalizing s log with
  | nil =>
    rw [keyHistory, List.flatMap_nil, List.append_nil]
    rfl
  | cons e rest ih =>
    rw [run_cons, run_cons, stimulate_observing, ih, keyHistory, List.flatMap_append,
      List.append_assoc]

theorem calls_keyHistory (s : Console cols rows × Devices ℓ κ β σ) (stimuli : List Stimulus) :
    (keyHistory s stimuli).flatMap KeyMoment.calls = surfaceCalls s stimuli := by
  rw [surfaceCalls, run_observing]
  rfl

end Agreement

/-! ## What the link is asked -/

section Requests

theorem not_isReconfigure_transmitCalls [SerialLink ℓ] (n : Nat) (tx : Ring UInt8 slots)
    (link : ℓ) : (transmitCalls n tx link).filter LinkCall.isReconfigure = [] := by
  induction n generalizing tx link with
  | zero => rfl
  | succ n ih =>
    rw [transmitCalls_succ]
    cases tx.peek? with
    | none => rfl
    | some b =>
      dsimp only
      by_cases hready : (SerialLink.ready link).2 = .ready
      · by_cases htaken : (SerialLink.send (SerialLink.ready link).1 b).2 = .taken
        · rw [if_pos hready, if_pos htaken]
          exact ih tx.pop.1 _
        · rw [if_pos hready, if_neg htaken]
          rfl
      · rw [if_neg hready]
        rfl

variable [SerialLink ℓ] [Bell β] [ConfigSurface σ cols rows]

theorem requests_keyMoments (s : Console cols rows × Devices ℓ κ β σ) (tokens : List KeyToken) :
    (routeAllCalls s tokens).filter LinkCall.isReconfigure =
      (keyMoments s tokens).flatMap KeyMoment.requests := by
  induction tokens generalizing s with
  | nil => rfl
  | cons token rest ih =>
    have first : (routeCalls s token).filter LinkCall.isReconfigure = routeCalls s token := by
      rw [List.filter_eq_self]
      intro request member
      obtain ⟨config, done, rfl⟩ := routeCalls_reconfigure s token member
      rfl
    rw [routeAllCalls_cons, List.filter_append, first, ih, keyMoments, List.flatMap_cons]
    rfl

variable [KeyboardHost κ]

/-- The link is asked for other settings by the keys in the history and by nothing else. -/
theorem requests_keyHistory (s : Console cols rows × Devices ℓ κ β σ) (stimuli : List Stimulus) :
    (keyHistory s stimuli).flatMap KeyMoment.requests =
      (linkCalls s stimuli).filter LinkCall.isReconfigure := by
  induction stimuli generalizing s with
  | nil => rfl
  | cons e rest ih =>
    rw [keyHistory, List.flatMap_append, ih, linkCalls_cons, List.filter_append]
    cases e with
    | receive b => rfl
    | poll now =>
      rw [stimulusCalls, List.filter_append, not_isReconfigure_transmitCalls, List.append_nil,
        requests_keyMoments]
      rfl

end Requests

/-! ## Every history is a chain of steps -/

section Chains

variable [SerialLink ℓ] [Bell β] [ConfigSurface σ cols rows]

theorem session_routeKey (c : Console cols rows) (d : Devices ℓ κ β σ) (token : KeyToken) :
    let out := c.router.dispatch token c.settings
      (⟨c.terminal, c.tx, d.bell, d.surface⟩ : Endpoints β σ cols rows txSlots)
    (routeKey (c, d) token).1.session =
      ⟨out.1.mode, out.1.draft, (adopted? out.2.2).getD c.settings⟩ := by
  unfold routeKey
  dsimp only
  rcases (c.router.dispatch token c.settings
    (⟨c.terminal, c.tx, d.bell, d.surface⟩ : Endpoints β σ cols rows txSlots)) with
    ⟨router, e, event⟩
  rcases event with _ | ⟨mode⟩ | ⟨settings⟩ <;> rfl

/-- The router is followed under observation, where what the surface was asked is part of
the state that it leaves behind. -/
theorem step_keyMoment (s : Console cols rows × Devices ℓ κ β σ) (token : KeyToken) :
    s.1.session.Step (keyMoment s token) := by
  obtain ⟨c, d⟩ := s
  let e : Endpoints β σ cols rows txSlots := ⟨c.terminal, c.tx, d.bell, d.surface⟩
  have observed := c.router.dispatch_observing token c.settings e []
  have routed := c.router.routed_dispatch token c.settings (e.observing [])
  have session := session_routeKey c d token
  have requests := routeCalls_eq c d token
  have calls : keyCalls (c, d) token =
    (c.router.dispatch token c.settings (e.observing [])).2.1.surface.log := rfl
  rw [keyMoment, session, requests, calls]
  have router := congrArg Prod.fst observed
  have event := congrArg (fun out => out.2.2) observed
  dsimp only at router event
  dsimp only
  rw [← router, ← event]
  generalize c.router.dispatch token c.settings (e.observing []) = out at routed
  cases routed with
  | opened => exact .opened
  | toLoopback mode_eq =>
    refine .switched .loopback ?_ nofun
    exact fun inside => Mode.noConfusion (mode_eq.symm.trans inside)
  | toHost mode_eq =>
    refine .switched .online ?_ nofun
    exact fun inside => Mode.noConfusion (mode_eq.symm.trans inside)
  | ignored a other editing => exact .ignored a other editing
  | sent _ plain mode_eq | echoed _ plain mode_eq =>
    refine .passed token plain ?_
    exact fun inside => Mode.noConfusion (mode_eq.symm.trans inside)
  | edited _ plain mode_eq reply reply_eq more =>
    have asked : reply.surface.log = [.key token c.router.draft reply.draft false] := by
      rw [← more, ← reply_eq]
      rfl
    dsimp only
    rw [asked]
    exact .edited token plain mode_eq reply.draft
  | finished _ plain mode_eq reply reply_eq done =>
    have asked : reply.surface.log = [.key token c.router.draft reply.draft true] := by
      rw [← done, ← reply_eq]
      rfl
    dsimp only
    rw [asked]
    refine .finished token plain mode_eq reply.draft _ ?_
    by_cases differ : reply.draft.serial ≠ c.session.settings.serial
    · rw [if_pos differ]
      exact ⟨_, if_pos differ⟩
    · rw [if_neg differ]
      exact if_neg differ

theorem steps_keyMoments (s : Console cols rows × Devices ℓ κ β σ) (tokens : List KeyToken) :
    s.1.session.Steps (keyMoments s tokens) ∧
      s.1.session.after (keyMoments s tokens) = (routeAll s tokens).1.session := by
  induction tokens generalizing s with
  | nil => exact ⟨trivial, rfl⟩
  | cons token rest ih =>
    obtain ⟨chain, last⟩ := ih (routeKey s token)
    exact ⟨⟨step_keyMoment s token, chain⟩, last⟩

variable [KeyboardHost κ]

/-- Bytes that arrive, the keyboard and the link leave the session as it is. -/
theorem steps_stimulusMoments (s : Console cols rows × Devices ℓ κ β σ) (e : Stimulus) :
    s.1.session.Steps (stimulusMoments s e) ∧
      s.1.session.after (stimulusMoments s e) = (stimulate s e).1.session := by
  cases e with
  | receive b => exact ⟨trivial, rfl⟩
  | poll now =>
    obtain ⟨keyboard, keys, same⟩ := (s.1.interpretReceived s.2).1.exists_pollKeyboard_eq now
      (s.1.interpretReceived s.2).2
    have unmoved : (s.1.beforeRouting now s.2).1.takeKeys.1.session = s.1.session := by
      rw [beforeRouting, same]
      rfl
    have sent : (stimulate s (.poll now)).1.session = (s.1.beforeTransmit now s.2).1.session := by
      rw [stimulate, poll_eq]
      generalize s.1.beforeTransmit now s.2 = sending
      rfl
    have routed := steps_keyMoments
      ((s.1.beforeRouting now s.2).1.takeKeys.1, (s.1.beforeRouting now s.2).2)
      (s.1.beforeRouting now s.2).1.takeKeys.2
    dsimp only at routed
    rw [unmoved] at routed
    rw [sent, beforeTransmit, routeKeys_eq]
    exact routed

/-- **Every run is a chain of steps**, and leaves the session where the last key has left
it. -/
theorem steps_keyHistory (s : Console cols rows × Devices ℓ κ β σ) (stimuli : List Stimulus) :
    s.1.session.Steps (keyHistory s stimuli) ∧
      s.1.session.after (keyHistory s stimuli) = (run s stimuli).1.session := by
  induction stimuli generalizing s with
  | nil => exact ⟨trivial, rfl⟩
  | cons e rest ih =>
    obtain ⟨first, there⟩ := steps_stimulusMoments s e
    obtain ⟨later, last⟩ := ih (stimulate s e)
    rw [keyHistory, Session.steps_append, Session.after_append, there]
    exact ⟨⟨first, later⟩, last⟩

/-- **An edit of the settings takes effect as a whole or not at all.** In every run, with
any surface, what recorders around surface and link write down is in the history of the
keys; nothing but these keys changes mode, draft and settings; and each of them does to
them what `Session.Atomic` says. -/
theorem edits_take_effect_whole (settings : Settings) (layout : Layout) (d : Devices ℓ κ β σ)
    (stimuli : List Stimulus) :
    let s := started cols rows settings layout d
    let h := keyHistory s stimuli
    let new : Session := ⟨.online, {}, settings⟩
    h.flatMap KeyMoment.calls = surfaceCalls s stimuli ∧
      h.flatMap KeyMoment.requests = (linkCalls s stimuli).filter LinkCall.isReconfigure ∧
      (run s stimuli).1.session = new.after h ∧
      ∀ earlier m later, h = earlier ++ m :: later → new.Atomic earlier m := by
  intro s h new
  obtain ⟨chain, last⟩ := steps_keyHistory s stimuli
  refine ⟨calls_keyHistory s stimuli, requests_keyHistory s stimuli, last.symm, ?_⟩
  intro earlier m later split
  have whole : new.Steps h := chain
  rw [split] at whole
  exact whole.atomic nofun

end Chains

end Console

end SerialTerminal
