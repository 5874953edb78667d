/-
When held keys repeat, in true time.

The slots are told the time by a clock that wraps, and compare with their deadlines by
a distance on the circle. The reference they are measured against is a `Timetable`: six
slots with deadlines that are natural numbers, compared with `≤`. **As long as the slots
are looked at once in half a turn of the clock, they are the timetable with its
deadlines wrapped** (`runSteps_wrapped`), and so both give out the same tokens.

What makes the wrapped comparison right is a window that every deadline lies in. It is
no more than a delay ahead of the latest call, and it is after the latest look
(`due_window`): a deadline that a look found passed has been moved. The bound on the
time between two looks then keeps it less than half a turn behind the next one.

A look is a call of `fire`. Before the first of them the wait is counted from the first
press, because there is no deadline before that.
-/
import SerialTerminal.Keyboard.Repeat
import Mathlib.Data.Fin.Basic
import Mathlib.Data.List.FinRange
import Mathlib.Data.List.Induction
import Mathlib.Data.Option.Basic

set_option autoImplicit false

namespace SerialTerminal

/-! ## Runs of a machine that answers -/

/-- Takes inputs one after the other and collects the answers. -/
def runSteps {σ ε ω : Type} (step : σ → ε → σ × ω) (s : σ) : List ε → σ × List ω
  | [] => (s, [])
  | e :: rest =>
    let next := step s e
    let done := runSteps step next.1 rest
    (done.1, next.2 :: done.2)

theorem runSteps_append_singleton {σ ε ω : Type} (step : σ → ε → σ × ω) (s : σ) (inputs : List ε)
    (e : ε) :
    runSteps step s (inputs ++ [e]) =
      ((step (runSteps step s inputs).1 e).1,
        (runSteps step s inputs).2 ++ [(step (runSteps step s inputs).1 e).2]) := by
  induction inputs generalizing s with
  | nil => rfl
  | cons first rest ih =>
    rw [List.cons_append, runSteps, runSteps, ih]
    rfl

/-- What the slots give out is what each of them gives out, in their order. -/
theorem filterMap_toList {α β : Type} {n : Nat} (slots : Vector α n) (f : α → Option β) :
    slots.toList.filterMap f = (List.finRange n).filterMap fun i => f (slots.get i) := by
  have listed : slots.toList = (List.finRange n).map slots.get := by
    apply List.ext_getElem
    · rw [Vector.length_toList, List.length_map, List.length_finRange]
    · intro i h₁ h₂
      simp only [Vector.getElem_toList, List.getElem_map, List.getElem_finRange]
      rfl
  rw [listed, List.filterMap_map]
  rfl

namespace RepeatSlots

/-! ## Calls at true times -/

/-- What is done with the slots. -/
inductive Call where
  | arm (usage : UInt8) (token : KeyToken)
  | release (report : KeyReport)
  | clear
  | fire
  deriving DecidableEq

/-- A call and the true time at which it is made. -/
structure TimedCall where
  time : Nat
  call : Call
  deriving DecidableEq

/-- Makes one call, which is told what the clock shows, and returns the tokens that it
gives out. -/
def step (r : RepeatSlots) (e : TimedCall) : RepeatSlots × List KeyToken :=
  match e.call with
  | .arm usage token => ((r.arm? usage token (.ofTime e.time)).getD r, [])
  | .release report => (r.releaseMissing report, [])
  | .clear => (empty, [])
  | .fire => r.fire (.ofTime e.time)

/-- The slots after some calls. -/
def after (calls : List TimedCall) : RepeatSlots :=
  (runSteps step empty calls).1

/-- The tokens that each of the calls gives out. -/
def emitted (calls : List TimedCall) : List (List KeyToken) :=
  (runSteps step empty calls).2

theorem after_append_singleton (calls : List TimedCall) (e : TimedCall) :
    after (calls ++ [e]) = ((after calls).step e).1 := by
  rw [after, runSteps_append_singleton]
  rfl

/-- The time from which the wait for the next look counts: that of the latest look, or of
the first press when there was no look yet. -/
def watchedFrom (since : Option Nat) (e : TimedCall) : Option Nat :=
  match e.call with
  | .fire => some e.time
  | .arm _ _ => since.or (some e.time)
  | .release _ => since
  | .clear => since

theorem watchedFrom_fire (since : Option Nat) {e : TimedCall} (look : e.call = .fire) :
    watchedFrom since e = some e.time := by
  obtain ⟨time, call⟩ := e
  cases look
  rfl

/-- Once the wait counts from somewhere, only a look changes that. -/
theorem watchedFrom_some (s : Nat) {e : TimedCall} (noLook : e.call ≠ .fire) :
    watchedFrom (some s) e = some s := by
  obtain ⟨time, call⟩ := e
  cases call with
  | fire => exact absurd rfl noLook
  | _ => rfl

/-- Every look comes less than half a turn of the clock after the one before it, and the
first one less than that after the first press. -/
def PacedFrom : Option Nat → List TimedCall → Prop
  | _, [] => True
  | since, e :: rest =>
    (e.call = .fire → ∀ s ∈ since, e.time < s + Instant.halfTurn) ∧
      PacedFrom (watchedFrom since e) rest

instance decidablePacedFrom : (since : Option Nat) → (calls : List TimedCall) →
    Decidable (PacedFrom since calls)
  | _, [] => .isTrue trivial
  | since, e :: rest =>
    have := decidablePacedFrom (watchedFrom since e) rest
    inferInstanceAs (Decidable (_ ∧ _))

/-- Time does not run backwards, and the slots are looked at often enough. -/
structure WellTimed (calls : List TimedCall) : Prop where
  sorted : calls.Pairwise fun a b => a.time ≤ b.time
  paced : PacedFrom none calls

theorem pacedFrom_append {since : Option Nat} {calls more : List TimedCall} :
    PacedFrom since (calls ++ more) ↔
      PacedFrom since calls ∧ PacedFrom (calls.foldl watchedFrom since) more := by
  induction calls generalizing since with
  | nil => exact ⟨fun h => ⟨trivial, h⟩, And.right⟩
  | cons e rest ih =>
    rw [List.cons_append, PacedFrom, PacedFrom, ih, and_assoc, List.foldl_cons]

theorem WellTimed.of_append {calls more : List TimedCall} (h : WellTimed (calls ++ more)) :
    WellTimed calls :=
  ⟨(List.pairwise_append.1 h.sorted).1, (pacedFrom_append.1 h.paced).1⟩

/-- The wait counts from a call that was made. -/
theorem exists_mem_of_watchedFrom {calls : List TimedCall} {s : Nat}
    (h : s ∈ calls.foldl watchedFrom none) : ∃ x ∈ calls, x.time = s := by
  induction calls using List.reverseRecOn with
  | nil => exact absurd h (Option.not_mem_none s)
  | append_singleton calls e ih =>
    rw [List.foldl_append, List.foldl_cons, List.foldl_nil] at h
    -- either the wait counts from this call, or it counts from where it did before
    have source : e.time = s ∨ s ∈ calls.foldl watchedFrom none := by
      unfold watchedFrom at h
      split at h
      · exact .inl (Option.some.inj h)
      · rcases Option.or_eq_some_iff.1 h with before | ⟨-, here⟩
        · exact .inr before
        · exact .inl (Option.some.inj here)
      · exact .inr h
      · exact .inr h
    rcases source with here | before
    · exact ⟨e, List.mem_append_right _ List.mem_cons_self, here⟩
    · obtain ⟨x, hx, hs⟩ := ih before
      exact ⟨x, List.mem_append_left _ hx, hs⟩

end RepeatSlots

/-! ## The reference -/

/-- A held key with its deadline in true time. -/
structure Appointment where
  usage : UInt8
  token : KeyToken
  due : Nat
  deriving DecidableEq

/-- The deadlines of the held keys in true time. -/
structure Timetable where
  slots : Vector (Option Appointment) KeyReport.maxKeys

/-- The same key with its deadline as the clock shows it. -/
def Appointment.wrapped (a : Appointment) : HeldKey :=
  ⟨a.usage, a.token, .ofTime a.due⟩

/-- A key whose deadline has come is due again 50 milliseconds from now. -/
def Appointment.advance (a : Appointment) (now : Nat) : Appointment :=
  if a.due ≤ now then { a with due := now + 50 } else a

/-- The token of a key whose deadline has come. -/
def Appointment.fired? (a : Appointment) (now : Nat) : Option KeyToken :=
  if a.due ≤ now then some a.token else none

theorem Appointment.advance_wrapped {a : Appointment} {t : Nat}
    (inTime : Instant.reached (.ofTime t) (.ofTime a.due) = decide (a.due ≤ t)) :
    a.wrapped.advance (.ofTime t) = (a.advance t).wrapped := by
  have due : Instant.ofTime t + RepeatSlots.interval = .ofTime (t + 50) :=
    Instant.ofTime_add t RepeatSlots.interval
  have isDue : a.wrapped.isDue (.ofTime t) = decide (a.due ≤ t) := inTime
  rw [HeldKey.advance, isDue, Appointment.advance, due]
  by_cases come : a.due ≤ t
  · rw [if_pos (decide_eq_true come), if_pos come]
    rfl
  · rw [if_neg (by rw [decide_eq_true_iff]; exact come), if_neg come]

theorem Appointment.fired?_wrapped {a : Appointment} {t : Nat}
    (inTime : Instant.reached (.ofTime t) (.ofTime a.due) = decide (a.due ≤ t)) :
    a.wrapped.fired? (.ofTime t) = a.fired? t := by
  have isDue : a.wrapped.isDue (.ofTime t) = decide (a.due ≤ t) := inTime
  rw [HeldKey.fired?, isDue, Appointment.fired?]
  simp only [decide_eq_true_eq]
  rfl

namespace Timetable

open RepeatSlots (TimedCall Call)

/-- No key is held. -/
def empty : Timetable := ⟨.replicate _ none⟩

/-- Puts a key into the first free slot, due 500 milliseconds from now. -/
def arm (s : Timetable) (usage : UInt8) (token : KeyToken) (now : Nat) : Timetable :=
  match s.slots.findFinIdx? Option.isNone with
  | some i => ⟨s.slots.set i.val (some ⟨usage, token, now + 500⟩) i.isLt⟩
  | none => s

/-- Makes one call. Every slot whose deadline has come gives out its token once, in the
order of the slots. -/
def step (s : Timetable) (e : TimedCall) : Timetable × List KeyToken :=
  match e.call with
  | .arm usage token => (s.arm usage token e.time, [])
  | .release report =>
    (⟨s.slots.map fun slot => slot.filter fun a => report.contains a.usage⟩, [])
  | .clear => (empty, [])
  | .fire =>
    (⟨s.slots.map fun slot => slot.map (·.advance e.time)⟩,
      s.slots.toList.filterMap fun slot => slot.bind (·.fired? e.time))

/-- The timetable after some calls. -/
def after (calls : List TimedCall) : Timetable :=
  (runSteps step empty calls).1

/-- The tokens that each of the calls gives out. -/
def emitted (calls : List TimedCall) : List (List KeyToken) :=
  (runSteps step empty calls).2

theorem after_append_singleton (calls : List TimedCall) (e : TimedCall) :
    after (calls ++ [e]) = ((after calls).step e).1 := by
  rw [after, runSteps_append_singleton]
  rfl

/-- The key in a slot, if there is one. -/
def key? (s : Timetable) (i : Fin KeyReport.maxKeys) : Option Appointment :=
  s.slots.get i

theorem key?_eq (s : Timetable) (i : Fin KeyReport.maxKeys) (h : i.val < KeyReport.maxKeys) :
    s.key? i = s.slots[i.val] := rfl

theorem key?_empty (i : Fin KeyReport.maxKeys) : empty.key? i = none := by
  simp [key?_eq, empty]

theorem key?_arm_cases (s : Timetable) (usage : UInt8) (token : KeyToken) (now : Nat) :
    (∃ i, s.key? i = none ∧ ∀ j,
      (s.arm usage token now).key? j =
        if j = i then some ⟨usage, token, now + 500⟩ else s.key? j) ∨
    s.arm usage token now = s := by
  unfold arm
  rcases RepeatSlots.free_cases s.slots with ⟨i, found, free⟩ | ⟨full, -⟩
  · refine .inl ⟨i, free, fun j => ?_⟩
    rw [found]
    exact RepeatSlots.get_set s.slots _ i j
  · exact .inr (by rw [full])

theorem key?_release (s : Timetable) (time : Nat) (report : KeyReport)
    (i : Fin KeyReport.maxKeys) :
    (s.step ⟨time, .release report⟩).1.key? i =
      (s.key? i).filter fun a => report.contains a.usage := by
  simp [key?_eq, step]

theorem key?_fire (s : Timetable) (time : Nat) (i : Fin KeyReport.maxKeys) :
    (s.step ⟨time, .fire⟩).1.key? i = (s.key? i).map (·.advance time) := by
  simp [key?_eq, step]

/-- **Where a key in a slot comes from**: it was there before, it was put there by this
press, or its deadline was moved by this look. -/
theorem key?_step_cases {s : Timetable} {e : TimedCall} {i : Fin KeyReport.maxKeys}
    {a : Appointment} (h : (s.step e).1.key? i = some a) :
    (s.key? i = some a ∧ (e.call = .fire → e.time < a.due)) ∨
    (s.key? i = none ∧ a.due = e.time + 500 ∧ e.call = .arm a.usage a.token) ∨
    (∃ b, s.key? i = some b ∧ b.due ≤ e.time ∧ a = { b with due := e.time + 50 } ∧
      e.call = .fire) := by
  obtain ⟨time, call⟩ := e
  cases call with
  | arm usage token =>
    rcases key?_arm_cases s usage token time with ⟨j, free, view⟩ | same
    · have h : (s.arm usage token time).key? i = some a := h
      rw [view] at h
      by_cases here : i = j
      · rw [if_pos here] at h
        obtain rfl := Option.some.inj h
        exact .inr (.inl ⟨here ▸ free, rfl, rfl⟩)
      · rw [if_neg here] at h
        exact .inl ⟨h, nofun⟩
    · have h : (s.arm usage token time).key? i = some a := h
      rw [same] at h
      exact .inl ⟨h, nofun⟩
  | release report =>
    rw [key?_release, Option.filter_eq_some_iff] at h
    exact .inl ⟨h.1, nofun⟩
  | clear =>
    have h : empty.key? i = some a := h
    rw [key?_empty] at h
    exact absurd h nofun
  | fire =>
    rw [key?_fire, Option.map_eq_some_iff] at h
    obtain ⟨b, hb, rfl⟩ := h
    by_cases come : b.due ≤ time
    · refine .inr (.inr ⟨b, hb, come, ?_, rfl⟩)
      rw [Appointment.advance, if_pos come]
    · have same : b.advance time = b := if_neg come
      rw [same]
      exact .inl ⟨hb, fun _ => Nat.lt_of_not_le come⟩

/-- **Every deadline lies in a window**: at most a delay after some call, and after the
time from which the wait for the next look counts. -/
theorem due_window {calls : List TimedCall} (h : RepeatSlots.WellTimed calls)
    {i : Fin KeyReport.maxKeys} {a : Appointment} (ha : (after calls).key? i = some a) :
    (∃ x ∈ calls, a.due ≤ x.time + 500) ∧
      ∃ s ∈ calls.foldl RepeatSlots.watchedFrom none, s < a.due := by
  -- on the calls, the last of them last
  induction calls using List.reverseRecOn generalizing a with
  | nil => exact absurd ha (by rw [after, runSteps, key?_empty]; nofun)
  | append_singleton calls e ih =>
    rw [after_append_singleton] at ha
    rw [List.foldl_append, List.foldl_cons, List.foldl_nil]
    have here : e ∈ calls ++ [e] := List.mem_append_right _ List.mem_cons_self
    rcases key?_step_cases ha with ⟨old, ahead⟩ | ⟨-, hdue, hcall⟩ | ⟨b, -, -, rfl, hcall⟩
    · obtain ⟨⟨x, hx, hle⟩, s, hs, hlt⟩ := ih h.of_append old
      refine ⟨⟨x, List.mem_append_left _ hx, hle⟩, ?_⟩
      by_cases look : e.call = .fire
      · exact ⟨e.time, RepeatSlots.watchedFrom_fire _ look, ahead look⟩
      · rw [Option.mem_def.1 hs, RepeatSlots.watchedFrom_some s look]
        exact ⟨s, rfl, hlt⟩
    · refine ⟨⟨e, here, Nat.le_of_eq hdue⟩, ?_⟩
      rcases hsince : calls.foldl RepeatSlots.watchedFrom none with _ | s
      · refine ⟨e.time, ?_, by omega⟩
        rw [RepeatSlots.watchedFrom, hcall]
        rfl
      -- the wait counts from an earlier call, which was made no later than this one
      · obtain ⟨x, hx, rfl⟩ := RepeatSlots.exists_mem_of_watchedFrom hsince
        have sorted := (List.pairwise_append.1 h.sorted).2.2 x hx e List.mem_cons_self
        rw [RepeatSlots.watchedFrom_some _ (by rw [hcall]; nofun)]
        exact ⟨x.time, rfl, by omega⟩
    · refine ⟨⟨e, here, ?_⟩, e.time, RepeatSlots.watchedFrom_fire _ hcall, ?_⟩
      · show e.time + 50 ≤ e.time + 500
        omega
      · show e.time < e.time + 50
        omega

/-- **The clock tells rightly whether a deadline has come**, at a look that is made in
time. -/
theorem reached_due {calls : List TimedCall} {t : Nat}
    (h : RepeatSlots.WellTimed (calls ++ [⟨t, .fire⟩])) {i : Fin KeyReport.maxKeys}
    {a : Appointment} (ha : (after calls).key? i = some a) :
    Instant.reached (.ofTime t) (.ofTime a.due) = decide (a.due ≤ t) := by
  obtain ⟨⟨x, hx, hle⟩, s, hs, hlt⟩ := due_window h.of_append ha
  have sorted : x.time ≤ t :=
    (List.pairwise_append.1 h.sorted).2.2 x hx ⟨t, .fire⟩ List.mem_cons_self
  have paced : t < s + Instant.halfTurn := (RepeatSlots.pacedFrom_append.1 h.paced).2.1 rfl s hs
  have wide : 500 ≤ Instant.halfTurn := by decide
  apply Instant.reached_ofTime
  · omega
  · omega

/-! ## The slots are the timetable, wrapped -/

/-- The timetable with its deadlines as the clock shows them. -/
def wrapped (s : Timetable) : RepeatSlots :=
  ⟨s.slots.map (Option.map Appointment.wrapped)⟩

@[simp] theorem key?_wrapped (s : Timetable) (i : Fin KeyReport.maxKeys) :
    s.wrapped.key? i = (s.key? i).map Appointment.wrapped := by
  simp [RepeatSlots.key?, key?_eq, wrapped]

theorem wrapped_empty : empty.wrapped = RepeatSlots.empty := by
  apply RepeatSlots.ext_key?
  intro i
  rw [key?_wrapped, key?_empty, RepeatSlots.key?_empty, Option.map_none]

/-- Wrapping the deadlines does not change which slots are free. -/
theorem free_wrapped (s : Timetable) :
    s.wrapped.slots.findFinIdx? Option.isNone = s.slots.findFinIdx? Option.isNone := by
  have occupied : Option.isNone ∘ Option.map Appointment.wrapped = Option.isNone := by
    funext slot
    cases slot <;> rfl
  have index : ∀ {α : Type} (p : α → Bool) (xs : Vector α KeyReport.maxKeys),
      (xs.findFinIdx? p).map Fin.val = xs.toArray.findIdx? p := by
    intro α p xs
    rw [Array.findIdx?_eq_map_findFinIdx?_val, Vector.findFinIdx?_toArray, Option.map_map]
    rfl
  apply Option.map_injective Fin.val_injective
  rw [index, index, wrapped, Vector.toArray_map, Array.findIdx?_map, occupied]

theorem arm_wrapped (s : Timetable) (usage : UInt8) (token : KeyToken) (now : Nat) :
    (s.wrapped.arm? usage token (.ofTime now)).getD s.wrapped =
      (s.arm usage token now).wrapped := by
  have due : Instant.ofTime now + RepeatSlots.delay = .ofTime (now + 500) :=
    Instant.ofTime_add now RepeatSlots.delay
  rw [RepeatSlots.arm?, free_wrapped, arm, due]
  cases s.slots.findFinIdx? Option.isNone with
  | some i => simp [wrapped, Appointment.wrapped]
  | none => rfl

/-- A call makes of the wrapped timetable what it makes of the timetable, and gives out
the same tokens. Only a look needs to be made in time for that. -/
theorem step_wrapped (s : Timetable) (e : TimedCall)
    (inTime : e.call = .fire → ∀ i a, s.key? i = some a →
      Instant.reached (.ofTime e.time) (.ofTime a.due) = decide (a.due ≤ e.time)) :
    s.wrapped.step e = ((s.step e).1.wrapped, (s.step e).2) := by
  obtain ⟨time, call⟩ := e
  cases call with
  | arm usage token => exact congrArg (·, []) (arm_wrapped s usage token time)
  | release report =>
    refine congrArg (·, []) (RepeatSlots.ext_key? fun i => ?_)
    rw [RepeatSlots.key?_releaseMissing, key?_wrapped, key?_wrapped, key?_release,
      Option.filter_map]
    rfl
  | clear => exact congrArg (·, []) wrapped_empty.symm
  | fire =>
    have inTime := inTime rfl
    refine Prod.ext (RepeatSlots.ext_key? fun i => ?_) ?_
    · change (s.wrapped.fire (.ofTime time)).1.key? i = _
      rw [RepeatSlots.key?_fire, key?_wrapped, key?_wrapped, key?_fire, Option.map_map,
        Option.map_map]
      exact Option.map_congr fun a ha => Appointment.advance_wrapped (inTime i a ha)
    · change s.wrapped.slots.toList.filterMap _ = s.slots.toList.filterMap _
      rw [filterMap_toList, filterMap_toList]
      apply List.filterMap_congr
      intro i _
      change (s.wrapped.key? i).bind _ = (s.key? i).bind _
      rw [key?_wrapped, Option.bind_map]
      exact Option.bind_congr fun a ha => Appointment.fired?_wrapped (inTime i a ha)

/-- **Through every well-timed run of calls the slots are the timetable, wrapped**, and
both give out the same. -/
theorem runSteps_wrapped {calls : List TimedCall} (h : RepeatSlots.WellTimed calls) :
    RepeatSlots.after calls = (after calls).wrapped ∧
      RepeatSlots.emitted calls = emitted calls := by
  induction calls using List.reverseRecOn with
  | nil => exact ⟨wrapped_empty.symm, rfl⟩
  | append_singleton calls e ih =>
    obtain ⟨hafter, hemitted⟩ := ih h.of_append
    have next : (RepeatSlots.after calls).step e =
        (((after calls).step e).1.wrapped, ((after calls).step e).2) := by
      rw [hafter]
      apply step_wrapped
      intro look i a ha
      have he : e = ⟨e.time, .fire⟩ := by rw [← look]
      rw [he] at h
      exact reached_due h ha
    rw [RepeatSlots.after_append_singleton, after_append_singleton, next]
    refine ⟨rfl, ?_⟩
    rw [RepeatSlots.emitted, emitted, runSteps_append_singleton, runSteps_append_singleton]
    change RepeatSlots.emitted calls ++ [((RepeatSlots.after calls).step e).2] =
      emitted calls ++ [((after calls).step e).2]
    rw [hemitted, next]

end Timetable

/-! ## One key in one slot -/

namespace RepeatSlots

/-- The token that a slot gives out when a look at time `t` comes next. -/
def firing? (calls : List TimedCall) (t : Nat) (i : Fin KeyReport.maxKeys) : Option KeyToken :=
  ((after calls).key? i).bind (·.fired? (.ofTime t))

/-- The slot is taken after each of some more calls. -/
def Stays (i : Fin KeyReport.maxKeys) : List TimedCall → List TimedCall → Prop
  | _, [] => True
  | calls, e :: more => (after (calls ++ [e])).key? i ≠ none ∧ Stays i (calls ++ [e]) more

/-- The slot gives out nothing at any of some more calls. -/
def Silent (i : Fin KeyReport.maxKeys) : List TimedCall → List TimedCall → Prop
  | _, [] => True
  | calls, e :: more =>
    (e.call = .fire → firing? calls e.time i = none) ∧ Silent i (calls ++ [e]) more

/-- The call gives a key up. -/
def Call.Releases (usage : UInt8) : Call → Prop
  | .release report => report.contains usage = false
  | .clear => True
  | .arm _ _ => False
  | .fire => False

variable {calls more : List TimedCall} {t : Nat} {i : Fin KeyReport.maxKeys} {a : Appointment}

theorem key?_after (h : WellTimed calls) (i : Fin KeyReport.maxKeys) :
    (after calls).key? i = ((Timetable.after calls).key? i).map Appointment.wrapped := by
  rw [(Timetable.runSteps_wrapped h).1, Timetable.key?_wrapped]

theorem exists_of_taken (h : WellTimed calls) (taken : (after calls).key? i ≠ none) :
    ∃ b, (Timetable.after calls).key? i = some b := by
  rw [key?_after h, Option.ne_none_iff_isSome, Option.isSome_map] at taken
  exact Option.isSome_iff_exists.1 taken

/-- A slot gives out the token of a key whose true deadline has come, and nothing else. -/
theorem firing?_eq (h : WellTimed (calls ++ [⟨t, .fire⟩])) (i : Fin KeyReport.maxKeys) :
    firing? calls t i = ((Timetable.after calls).key? i).bind (·.fired? t) := by
  rw [firing?, key?_after h.of_append, Option.bind_map]
  exact Option.bind_congr fun a ha => Appointment.fired?_wrapped (Timetable.reached_due h ha)

/-- A key that stays and gives out nothing keeps its deadline. -/
theorem key?_of_silent (h : WellTimed (calls ++ more))
    (ha : (Timetable.after calls).key? i = some a) (stays : Stays i calls more)
    (silent : Silent i calls more) : (Timetable.after (calls ++ more)).key? i = some a := by
  induction more generalizing calls with
  | nil =>
    rw [List.append_nil]
    exact ha
  | cons e more ih =>
    rw [List.append_cons] at h ⊢
    have known := h.of_append
    apply ih h ?_ stays.2 silent.2
    -- the slot holds a key after this call, and it can only be the one from before
    obtain ⟨b, hb⟩ := exists_of_taken known stays.1
    rw [hb]
    rw [Timetable.after_append_singleton] at hb
    rcases Timetable.key?_step_cases hb with ⟨old, -⟩ | ⟨free, -, -⟩ | ⟨c, hc, come, -, look⟩
    · rw [← old, ha]
    · rw [ha] at free
      exact absurd free nofun
    · have he : e = ⟨e.time, .fire⟩ := by rw [← look]
      have quiet := silent.1 look
      rw [firing?_eq (he ▸ known), hc, Option.bind_some, Appointment.fired?, if_pos come] at quiet
      exact absurd quiet nofun

/-- While a key stays, its deadline only moves forwards. -/
theorem le_due_of_stays (h : WellTimed (calls ++ more))
    (ha : (Timetable.after calls).key? i = some a) (stays : Stays i calls more) :
    ∃ b, (Timetable.after (calls ++ more)).key? i = some b ∧ a.due ≤ b.due := by
  induction more generalizing calls a with
  | nil =>
    rw [List.append_nil]
    exact ⟨a, ha, Nat.le_refl _⟩
  | cons e more ih =>
    rw [List.append_cons] at h ⊢
    have known := h.of_append
    obtain ⟨b, hb⟩ := exists_of_taken known stays.1
    have later : a.due ≤ b.due := by
      have hb := hb
      rw [Timetable.after_append_singleton] at hb
      rcases Timetable.key?_step_cases hb with ⟨old, -⟩ | ⟨free, -, -⟩ | ⟨c, hc, come, rfl, -⟩
      · rw [ha] at old
        rw [Option.some.inj old]
      · rw [ha] at free
        exact absurd free nofun
      · rw [ha] at hc
        rw [Option.some.inj hc]
        show c.due ≤ e.time + 50
        omega
    obtain ⟨c, hc, hle⟩ := ih h hb stays.2
    exact ⟨c, hc, by omega⟩

/-- A key that was given up is in no slot until it is pressed again. -/
theorem usage_ne_of_released {e : TimedCall} {usage : UInt8} (h : WellTimed (calls ++ e :: more))
    (released : e.call.Releases usage)
    (notPressed : ∀ x ∈ more, ∀ token, x.call ≠ .arm usage token)
    (ha : (Timetable.after (calls ++ e :: more)).key? i = some a) : a.usage ≠ usage := by
  induction more using List.reverseRecOn generalizing a with
  | nil =>
    rw [Timetable.after_append_singleton] at ha
    obtain ⟨time, call⟩ := e
    cases call with
    | release report =>
      rw [Timetable.key?_release, Option.filter_eq_some_iff] at ha
      intro same
      rw [same] at ha
      exact absurd (released.symm.trans ha.2) nofun
    | clear =>
      have ha : Timetable.empty.key? i = some a := ha
      rw [Timetable.key?_empty] at ha
      exact absurd ha nofun
    | arm _ _ => exact released.elim
    | fire => exact released.elim
  | append_singleton more x ih =>
    rw [← List.cons_append, ← List.append_assoc] at h ha
    rw [Timetable.after_append_singleton] at ha
    have before : ∀ y ∈ more, ∀ token, y.call ≠ .arm usage token := fun y hy =>
      notPressed y (List.mem_append_left _ hy)
    rcases Timetable.key?_step_cases ha with ⟨old, -⟩ | ⟨-, -, pressed⟩ | ⟨b, hb, -, rfl, -⟩
    · exact ih h.of_append before old
    · rintro rfl
      exact notPressed x (List.mem_append_right _ List.mem_cons_self) _ pressed
    · have same := ih h.of_append before hb
      exact same

/-- What a look at time `t` owes to the calls that were made before it, slot by slot. -/
structure KeepsTime (before : List TimedCall) (t : Nat) : Prop where
  /-- Every slot is asked once, in the order of the slots. -/
  once : ((after before).step ⟨t, .fire⟩).2 =
    (List.finRange KeyReport.maxKeys).filterMap (firing? before t)
  /-- A key that was pressed and has given out nothing yet does so from 500 milliseconds
  after the press on. -/
  after_press : ∀ earlier s usage token more i,
    before = earlier ++ ⟨s, .arm usage token⟩ :: more →
    (after earlier).key? i = none → Stays i earlier (⟨s, .arm usage token⟩ :: more) →
    Silent i (earlier ++ [⟨s, .arm usage token⟩]) more →
    firing? before t i = if s + 500 ≤ t then some token else none
  /-- A key that gave out its token does so again from 50 milliseconds after that on. -/
  after_fire : ∀ earlier s token more i, before = earlier ++ ⟨s, .fire⟩ :: more →
    firing? earlier s i = some token → Stays i earlier (⟨s, .fire⟩ :: more) →
    Silent i (earlier ++ [⟨s, .fire⟩]) more →
    firing? before t i = if s + 50 ≤ t then some token else none
  /-- However often a key has repeated, never less than 500 milliseconds after its press. -/
  never_early : ∀ earlier s usage token more i,
    before = earlier ++ ⟨s, .arm usage token⟩ :: more →
    (after earlier).key? i = none → Stays i earlier (⟨s, .arm usage token⟩ :: more) →
    firing? before t i ≠ none → s + 500 ≤ t
  /-- A key that was given up and not pressed again is in no slot any more. -/
  released : ∀ earlier e more usage, before = earlier ++ e :: more → e.call.Releases usage →
    (∀ x ∈ more, ∀ token, x.call ≠ .arm usage token) →
    ∀ i held, (after before).key? i = some held → held.usage ≠ usage

/-- A press that takes a free slot sets the first deadline there. -/
theorem key?_of_pressed {s : Nat} {usage : UInt8} {token : KeyToken}
    (h : WellTimed (calls ++ [⟨s, .arm usage token⟩])) (free : (after calls).key? i = none)
    (taken : (after (calls ++ [⟨s, .arm usage token⟩])).key? i ≠ none) :
    (Timetable.after (calls ++ [⟨s, .arm usage token⟩])).key? i =
      some ⟨usage, token, s + 500⟩ := by
  rw [key?_after h.of_append, Option.map_eq_none_iff] at free
  obtain ⟨a, ha⟩ := exists_of_taken h taken
  rw [ha]
  rw [Timetable.after_append_singleton] at ha
  rcases Timetable.key?_step_cases ha with ⟨old, -⟩ | ⟨-, hdue, pressed⟩ | ⟨b, hb, -, -, -⟩
  · rw [free] at old
    exact absurd old nofun
  · obtain ⟨rfl, rfl⟩ := Call.arm.inj pressed
    rw [← hdue]
  · rw [free] at hb
    exact absurd hb nofun

theorem keepsTime {before : List TimedCall} (h : WellTimed (before ++ [⟨t, .fire⟩])) :
    KeepsTime before t where
  once := filterMap_toList (after before).slots _
  after_press := by
    intro earlier s usage token more i split free stays silent
    have known := h.of_append
    rw [split, List.append_cons] at known
    have pressed := key?_of_pressed known.of_append free stays.1
    have kept := key?_of_silent known pressed stays.2 silent
    rw [← List.append_cons, ← split] at kept
    rw [firing?_eq h, kept]
    rfl
  after_fire := by
    intro earlier s token more i split fired stays silent
    have known := h.of_append
    rw [split, List.append_cons] at known
    rw [firing?_eq known.of_append, Option.bind_eq_some_iff] at fired
    obtain ⟨b, hb, fired⟩ := fired
    obtain ⟨come, rfl⟩ : b.due ≤ s ∧ b.token = token := by
      rw [Appointment.fired?] at fired
      by_cases come : b.due ≤ s
      · rw [if_pos come] at fired
        exact ⟨come, Option.some.inj fired⟩
      · rw [if_neg come] at fired
        exact absurd fired nofun
    have moved : (Timetable.after (earlier ++ [⟨s, .fire⟩])).key? i =
        some { b with due := s + 50 } := by
      rw [Timetable.after_append_singleton, Timetable.key?_fire, hb, Option.map_some,
        Appointment.advance, if_pos come]
    have kept := key?_of_silent known moved stays.2 silent
    rw [← List.append_cons, ← split] at kept
    rw [firing?_eq h, kept]
    rfl
  never_early := by
    intro earlier s usage token more i split free stays fired
    have known := h.of_append
    rw [split, List.append_cons] at known
    have pressed := key?_of_pressed known.of_append free stays.1
    obtain ⟨b, hb, later⟩ := le_due_of_stays known pressed stays.2
    rw [← List.append_cons, ← split] at hb
    rw [firing?_eq h, hb, Option.bind_some, Appointment.fired?] at fired
    have later : s + 500 ≤ b.due := later
    by_cases come : b.due ≤ t
    · omega
    · rw [if_neg come] at fired
      exact absurd rfl fired
  released := by
    intro earlier e more usage split released notPressed i held taken
    rw [key?_after h.of_append, Option.map_eq_some_iff] at taken
    obtain ⟨a, ha, rfl⟩ := taken
    have known := h.of_append
    rw [split] at known ha
    exact usage_ne_of_released known released notPressed ha

/-- **Auto-repeat is exact in true time**, wherever on its circle the clock stands. When
the slots are looked at once in half a turn, every call gives out what it gives out with
deadlines that never wrap, and every look keeps the time of every key: the first repeat
at the first look from 500 milliseconds after the press on, each further one at the first
look from 50 milliseconds after the one before on, at most one for each look, and none
after the release. -/
theorem repeats_in_true_time {calls : List TimedCall} (h : WellTimed calls) :
    emitted calls = Timetable.emitted calls ∧
      ∀ before t later, calls = before ++ ⟨t, .fire⟩ :: later → KeepsTime before t := by
  refine ⟨(Timetable.runSteps_wrapped h).2, ?_⟩
  intro before t later split
  rw [split, List.append_cons] at h
  exact keepsTime h.of_append

/-- Two keys are pressed, one before the clock wraps and one after. The first look comes
a millisecond too early for either, the second one in time for the first key, and the third as
late as it may; then one key is given up. -/
theorem repeats_across_the_wrap :
    let calls : List TimedCall :=
      [⟨4294967195, .arm 0x04 (.byte 0x61)⟩, ⟨4294967300, .arm 0x05 (.byte 0x62)⟩,
        ⟨4294967694, .fire⟩, ⟨4294967695, .fire⟩, ⟨6442451342, .fire⟩,
        ⟨6442451343, .release (.ofKeys {} [0x04])⟩, ⟨6442451392, .fire⟩]
    WellTimed calls ∧
      emitted calls =
        [[], [], [], [.byte 0x61], [.byte 0x61, .byte 0x62], [], [.byte 0x61]] ∧
      ∀ before t later, calls = before ++ ⟨t, .fire⟩ :: later → KeepsTime before t := by
  intro calls
  have timed : WellTimed calls := ⟨by decide, by decide⟩
  obtain ⟨same, keeps⟩ := repeats_in_true_time timed
  refine ⟨timed, ?_, keeps⟩
  rw [same]
  decide +kernel

end RepeatSlots

end SerialTerminal
