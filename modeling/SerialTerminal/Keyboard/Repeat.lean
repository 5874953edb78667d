/-
Auto-repeat of held keys.

A key that stays down fires its token again after half a second and then every
twentieth of a second. Each held key occupies one of six slots, as many as a
report has places, with the token that its press decoded to and the instant at
which it is due.

**A repeat counts from when it fires, not from when it was due.** If the poll
loop comes late, the next repeat is late by as much, and no repeats are made up
for.
-/
import SerialTerminal.Clock
import SerialTerminal.Keyboard.Report
import SerialTerminal.Keyboard.Token

set_option autoImplicit false

namespace SerialTerminal

/-- A held key that will fire again. -/
structure HeldKey where
  /-- The usage code of the key. -/
  usage : UInt8
  /-- What its press decoded to. -/
  token : KeyToken
  /-- When it is due. -/
  due : Instant
  deriving DecidableEq

/-- The slots of the held keys. -/
structure RepeatSlots where
  slots : Vector (Option HeldKey) KeyReport.maxKeys
  deriving DecidableEq

namespace RepeatSlots

/-- From the press to the first repeat, in milliseconds. -/
def delay : Instant := 500

/-- From one repeat to the next, in milliseconds. -/
def interval : Instant := 50

/-- No key is held. -/
def empty : RepeatSlots := ⟨.replicate _ none⟩

instance : Inhabited RepeatSlots := ⟨empty⟩

/-- The number of keys held. -/
def active (r : RepeatSlots) : Nat :=
  r.slots.toList.countP Option.isSome

/-- Begins to repeat a key in the first free slot; `none` when all six are
taken. -/
def arm? (r : RepeatSlots) (usage : UInt8) (token : KeyToken) (now : Instant) :
    Option RepeatSlots :=
  match r.slots.findFinIdx? Option.isNone with
  | some i => some ⟨r.slots.set i.val (some ⟨usage, token, now + delay⟩) i.isLt⟩
  | none => none

/-- Gives up the keys that a report no longer contains. -/
def releaseMissing (r : RepeatSlots) (report : KeyReport) : RepeatSlots :=
  ⟨r.slots.map fun slot => slot.filter fun held => report.contains held.usage⟩

end RepeatSlots

namespace HeldKey

/-- The key is due. -/
def isDue (h : HeldKey) (now : Instant) : Bool :=
  now.reached h.due

/-- The key after time has passed: one that was due is due again after an
interval. -/
def advance (h : HeldKey) (now : Instant) : HeldKey :=
  if h.isDue now then { h with due := now + RepeatSlots.interval } else h

/-- The token that the key fires now, if it is due. -/
def fired? (h : HeldKey) (now : Instant) : Option KeyToken :=
  if h.isDue now then some h.token else none

end HeldKey

namespace RepeatSlots

/-- The tokens that are due, in the order of their slots, each once; the keys
that fired are due again after an interval. -/
def fire (r : RepeatSlots) (now : Instant) : RepeatSlots × List KeyToken :=
  (⟨r.slots.map fun slot => slot.map (·.advance now)⟩,
   r.slots.toList.filterMap fun slot => slot.bind (·.fired? now))

/-! ## What the slots hold -/

/-- **The view**: the key in a slot, if there is one. -/
def key? (r : RepeatSlots) (i : Fin KeyReport.maxKeys) : Option HeldKey := r.slots[i]

/-- Slots that hold the same keys are the same. -/
theorem ext_key? {r s : RepeatSlots} (h : ∀ i, r.key? i = s.key? i) : r = s := by
  obtain ⟨slots⟩ := r
  obtain ⟨others⟩ := s
  congr 1
  exact Vector.ext fun i hi => h ⟨i, hi⟩

@[simp] theorem key?_empty (i : Fin KeyReport.maxKeys) : empty.key? i = none := by
  simp [key?, empty]

@[simp] theorem key?_releaseMissing (r : RepeatSlots) (report : KeyReport)
    (i : Fin KeyReport.maxKeys) :
    (r.releaseMissing report).key? i =
      (r.key? i).filter fun held => report.contains held.usage := by
  simp [key?, releaseMissing]

@[simp] theorem key?_fire (r : RepeatSlots) (now : Instant) (i : Fin KeyReport.maxKeys) :
    (r.fire now).1.key? i = (r.key? i).map (·.advance now) := by
  simp [key?, fire]

/-- The search for a free slot ends at one, or there is none. -/
theorem free_cases {α : Type} {n : Nat} (slots : Vector (Option α) n) :
    (∃ i : Fin n, slots.findFinIdx? Option.isNone = some i ∧ slots.get i = none) ∨
      (slots.findFinIdx? Option.isNone = none ∧ ∀ i : Fin n, slots.get i ≠ none) := by
  cases h : slots.findFinIdx? Option.isNone with
  | some i =>
    have found : slots.find? Option.isNone = some (slots.get i) := by
      rw [Vector.find?_eq_map_findFinIdx?_getElem, h, Option.map_some]
      rfl
    have free := Vector.find?_some found
    exact .inl ⟨i, rfl, Option.isNone_iff_eq_none.1 free⟩
  | none =>
    rw [Vector.findFinIdx?_eq_none_iff] at h
    refine .inr ⟨rfl, fun i free => ?_⟩
    apply h (slots.get i) (Vector.getElem_mem i.isLt)
    rw [free, Option.isNone_none]

/-- Only the slot that is set changes. -/
theorem get_set {α : Type} {n : Nat} (slots : Vector α n) (a : α) (i j : Fin n) :
    (slots.set i.val a i.isLt).get j = if j = i then a else slots.get j := by
  change (slots.set i.val a i.isLt)[j.val] = if j = i then a else slots[j.val]
  by_cases here : j = i
  · rw [if_pos here, here, Vector.getElem_set_self]
  · have apart : i.val ≠ j.val := fun e => here (Fin.ext e.symm)
    rw [if_neg here, Vector.getElem_set_ne _ _ apart]

/-- **Arming puts the key into a slot that was free and touches no other**, or all six
were taken. -/
theorem arm?_cases (r : RepeatSlots) (usage : UInt8) (token : KeyToken) (now : Instant) :
    (∃ i s, r.arm? usage token now = some s ∧ r.key? i = none ∧
      ∀ j, s.key? j = if j = i then some ⟨usage, token, now + delay⟩ else r.key? j) ∨
    (r.arm? usage token now = none ∧ ∀ i, r.key? i ≠ none) := by
  unfold arm?
  rcases free_cases r.slots with ⟨i, found, free⟩ | ⟨full, taken⟩
  · refine .inl ⟨i, _, by rw [found], free, fun j => ?_⟩
    exact get_set r.slots _ i j
  · exact .inr ⟨by rw [full], taken⟩

end RepeatSlots

end SerialTerminal
