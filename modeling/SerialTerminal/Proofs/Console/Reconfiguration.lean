/-
The line settings of the console and those of the link.

When an edit ends with other line settings, the link is asked for them once, and the
console takes them over without regard to the answer. So the settings in effect are a
matter of what was asked, and the line itself one of what was granted. `LinkCall.latest`
reads both off the requests of a run: the last configuration asked for, and the last one
that the link complied with.

**The settings in effect are those last asked for** (`settings_follow_requests`), and they
are those of the line as long as the last request was not refused. After a refusal the two
are apart, and they stay so when the same settings are confirmed in a later edit: the link
is asked only for settings that differ from those in effect, so no request repeats the one
before it.
-/
import SerialTerminal.Proofs.Console.Session

set_option autoImplicit false

namespace SerialTerminal

namespace LinkCall

/-- The line settings that the link is asked for. -/
def requested? : LinkCall → Option SerialConfig
  | reconfigure config _ => some config
  | _ => none

/-- The line settings that the link takes over. -/
def granted? : LinkCall → Option SerialConfig
  | reconfigure config true => some config
  | _ => none

/-- Whether the link complies. -/
def complied? : LinkCall → Option Bool
  | reconfigure _ done => some done
  | _ => none

/-- What was told by the last request that tells anything. -/
def latest {α : Type} (tells : LinkCall → Option α) (initial : α) (calls : List LinkCall) : α :=
  calls.foldl (fun current request => (tells request).getD current) initial

theorem latest_append_singleton {α : Type} (tells : LinkCall → Option α) (initial : α)
    (calls : List LinkCall) (request : LinkCall) :
    latest tells initial (calls ++ [request]) =
      (tells request).getD (latest tells initial calls) :=
  List.foldl_append

/-- Requests that say nothing may be left out. -/
theorem latest_filter {α : Type} {tells : LinkCall → Option α} {p : LinkCall → Bool}
    (silent : ∀ request, p request = false → tells request = none) (initial : α)
    (calls : List LinkCall) :
    latest tells initial (calls.filter p) = latest tells initial calls := by
  induction calls generalizing initial with
  | nil => rfl
  | cons request rest ih =>
    cases hp : p request with
    | true =>
      rw [List.filter_cons_of_pos hp]
      exact ih _
    | false =>
      have same : latest tells initial (request :: rest) = latest tells initial rest := by
        rw [latest, List.foldl_cons, silent request hp]
        rfl
      rw [List.filter_cons_of_neg (by simp [hp]), ih, same]

end LinkCall

open LinkCall

/-! ## What requests tell about the settings -/

/-- The line settings in effect, seen from the requests made so far. -/
structure FollowsRequests (initial : SerialConfig) (calls : List LinkCall)
    (current : SerialConfig) : Prop where
  /-- They were asked for last. -/
  requested : current = latest requested? initial calls
  /-- The line has them too, unless it has just refused them. -/
  granted : latest complied? true calls = true → current = latest granted? initial calls
  /-- No request repeats the one before it. -/
  changes : ∀ earlier config done later,
    calls = earlier ++ .reconfigure config done :: later →
      config ≠ latest requested? initial earlier

namespace FollowsRequests

variable {initial current : SerialConfig} {calls : List LinkCall}

theorem start (initial : SerialConfig) : FollowsRequests initial [] initial := by
  refine ⟨rfl, fun _ => rfl, ?_⟩
  intro earlier config done later split
  exact absurd split.symm (by simp)

/-- The link is asked for other settings, which come into effect whatever it answers. -/
theorem ask (h : FollowsRequests initial calls current) {config : SerialConfig}
    (differs : config ≠ current) (done : Bool) :
    FollowsRequests initial (calls ++ [.reconfigure config done]) config := by
  refine ⟨?_, ?_, ?_⟩
  · rw [latest_append_singleton]
    rfl
  · rw [latest_append_singleton, latest_append_singleton]
    intro complied
    have granted : done = true := complied
    rw [granted]
    rfl
  · intro earlier config' done' later split
    -- the request that is looked at is the new one, or one of those before
    rcases List.eq_nil_or_concat later with rfl | ⟨later, last, rfl⟩
    · obtain ⟨rfl, same⟩ := List.append_inj' split rfl
      cases same
      rw [← h.requested]
      exact differs
    · rw [List.concat_eq_append, ← List.cons_append, ← List.append_assoc] at split
      obtain ⟨rfl, -⟩ := List.append_inj' split rfl
      exact h.changes earlier config' done' later rfl

theorem of_filter
    (h : FollowsRequests initial (calls.filter LinkCall.isReconfigure) current) :
    FollowsRequests initial calls current := by
  have silent : ∀ {α : Type} (tells : LinkCall → Option α),
      (∀ answer, tells (.ready answer) = none) → (∀ b answer, tells (.send b answer) = none) →
      ∀ request, request.isReconfigure = false → tells request = none := by
    intro α tells ready send request other
    cases request with
    | ready answer => exact ready answer
    | send b answer => exact send b answer
    | reconfigure config done => cases other
  have asks := silent requested? (fun _ => rfl) (fun _ _ => rfl)
  have grants := silent granted? (fun _ => rfl) (fun _ _ => rfl)
  have complies := silent complied? (fun _ => rfl) (fun _ _ => rfl)
  refine ⟨?_, ?_, ?_⟩
  · rw [← latest_filter asks]
    exact h.requested
  · rw [← latest_filter complies, ← latest_filter grants]
    exact h.granted
  · intro earlier config done later split
    rw [← latest_filter asks]
    apply h.changes _ config done (later.filter LinkCall.isReconfigure)
    rw [split, List.filter_append, List.filter_cons_of_pos rfl]

end FollowsRequests

/-! ## Every run -/

namespace Session

variable {s : Session} {m : KeyMoment} {h : List KeyMoment}

/-- A key asks nothing of the link and leaves the line settings, or it asks for other ones
and puts them into effect. -/
theorem Step.requests_cases (step : s.Step m) :
    (m.requests = [] ∧ m.after.settings.serial = s.settings.serial) ∨
      ∃ done, m.requests = [.reconfigure m.after.settings.serial done] ∧
        m.after.settings.serial ≠ s.settings.serial := by
  cases step with
  | opened | switched | ignored | passed | edited => exact .inl ⟨rfl, rfl⟩
  | finished token plain within draft requests asked =>
    by_cases differs : draft.serial ≠ s.settings.serial
    · rw [if_pos differs] at asked
      obtain ⟨done, rfl⟩ := asked
      exact .inr ⟨done, rfl, differs⟩
    · rw [if_neg differs] at asked
      exact .inl ⟨asked, not_ne_iff.1 differs⟩

theorem Steps.followsRequests (chain : s.Steps h) :
    FollowsRequests s.settings.serial (h.flatMap KeyMoment.requests)
      (s.after h).settings.serial := by
  induction h using List.reverseRecOn with
  | nil => exact .start s.settings.serial
  | append_singleton h m ih =>
    obtain ⟨earlier, step, -⟩ := (steps_append s h [m]).1 chain
    have sofar := ih earlier
    have last : s.after (h ++ [m]) = m.after := after_append s h [m]
    have calls : (h ++ [m]).flatMap KeyMoment.requests =
        h.flatMap KeyMoment.requests ++ m.requests := by
      rw [List.flatMap_append, List.flatMap_singleton]
    rw [last, calls]
    rcases step.requests_cases with ⟨none, same⟩ | ⟨done, asked, differs⟩
    · rw [none, List.append_nil, same]
      exact sofar
    · rw [asked]
      exact sofar.ask differs done

end Session

namespace Console

variable {ℓ κ β σ : Type} {cols rows : Nat}
variable [SerialLink ℓ] [KeyboardHost κ] [Bell β] [ConfigSurface σ cols rows]

/-- **The line settings in effect are those last asked for**, and those of the line as long
as the link has not refused the last request. What was refused is not asked for again before
the settings change once more. -/
theorem settings_follow_requests (settings : Settings) (layout : Layout) (d : Devices ℓ κ β σ)
    (stimuli : List Stimulus) :
    let s := started cols rows settings layout d
    FollowsRequests settings.serial (linkCalls s stimuli)
      (run s stimuli).1.settings.serial := by
  intro s
  obtain ⟨chain, last⟩ := steps_keyHistory s stimuli
  have follows := chain.followsRequests
  rw [requests_keyHistory, last] at follows
  exact follows.of_filter

/-- The operator changes the baud rate, which the link refuses, and then opens the surface and
leaves it as it is. The second edit asks for nothing, and the rate that was refused is still
the one in effect. -/
theorem refused_settings_in_effect :
    let d : Devices FixedLink KeyScript Bell.Silent BaudEditor :=
      ⟨⟨⟩, ⟨[.ofKeys ⟨0x04⟩ [0x06], .ofKeys {} [0x05], .ofKeys {} [0x29],
        .ofKeys ⟨0x04⟩ [0x06], .ofKeys {} [0x29]]⟩, ⟨⟩, ⟨⟩⟩
    let s := started 1 1 {} .us d
    let stimuli := [.poll 0, .poll 10, .poll 20, .poll 30, .poll 40]
    linkCalls s stimuli = [.reconfigure ⟨.b9600, .eightNone⟩ false] ∧
      (run s stimuli).1.settings.serial = ⟨.b9600, .eightNone⟩ ∧
      (run s stimuli).1.settings.serial ≠
        latest granted? ({} : Settings).serial (linkCalls s stimuli) := by
  decide +kernel

end Console

end SerialTerminal
