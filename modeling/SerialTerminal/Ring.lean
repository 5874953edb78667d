/-
A bounded queue kept in a circular array, for one writer and one reader.

Three of them stand between the contexts of the terminal: received bytes,
decoded keys, and bytes waiting for the transmitter. A ring of `n` slots has a
read index and a write index, both modulo `n`; it is empty when they agree and
full when the write index is one step behind the read index, so it holds at
most `n - 1` items. That wasted slot is what tells full from empty without a
counter that both sides would have to write.

**A full ring drops the incoming item.** What is queued stays, and the writer
never waits.

Two functions on slots are all the arithmetic there is: the slot after a slot,
and how far it is forwards from one slot to another. A slot is *live* when it is
closer ahead of the read index than the write index is; that live slots hold an
item is part of the type, so reading one never fails.
-/
set_option autoImplicit false

namespace SerialTerminal

universe u

/-! ## Slots on a circle -/

namespace Ring

variable {slots : Nat}

/-- The slot after a slot; after the last one comes slot `0`. -/
def next (a : Fin slots) : Fin slots :=
  if h : a.val + 1 < slots then ⟨a.val + 1, h⟩
  else ⟨0, Nat.lt_of_le_of_lt (Nat.zero_le a.val) a.isLt⟩

/-- How many steps it is forwards from `a` to `b`. -/
def steps (a b : Fin slots) : Nat :=
  if a.val ≤ b.val then b.val - a.val else slots - a.val + b.val

/-- A step forwards stays in the row or goes around. -/
theorem next_cases (a : Fin slots) :
    (a.val + 1 < slots ∧ (next a).val = a.val + 1) ∨
      (a.val + 1 = slots ∧ (next a).val = 0) := by
  have := a.isLt
  unfold next
  split
  · exact .inl ⟨by assumption, rfl⟩
  · exact .inr ⟨by omega, rfl⟩

/-- The way forwards stays in the row or goes around. -/
theorem steps_cases (a b : Fin slots) :
    (a.val ≤ b.val ∧ steps a b = b.val - a.val) ∨
      (b.val < a.val ∧ steps a b = slots - a.val + b.val) := by
  unfold steps
  split <;> omega

end Ring

/-! ## The ring -/

/-- A circular queue with the given number of slots. A slot that is not live may
hold a value that was read before; nothing looks at it again until it is
overwritten. -/
@[ext] structure Ring (α : Type u) (slots : Nat) where
  cells : Vector (Option α) slots
  /-- The oldest item. -/
  head : Fin slots
  /-- The slot which the next item goes to. -/
  tail : Fin slots
  /-- From the read index up to the write index every slot holds an item. -/
  live : ∀ j : Fin slots, Ring.steps head j < Ring.steps head tail → (cells[j]).isSome

namespace Ring

variable {α : Type u} {slots : Nat}

/-- A ring that holds nothing. -/
def empty (pos : 0 < slots) : Ring α slots where
  cells := .replicate slots none
  head := ⟨0, pos⟩
  tail := ⟨0, pos⟩
  live _ h := absurd h (by simp [steps])

/-! ## Reading -/

/-- The number of items held: the way from the read index to the write index. -/
def size (r : Ring α slots) : Nat :=
  steps r.head r.tail

/-- The number of items held at once: one slot always stays free. -/
def capacity (_ : Ring α slots) : Nat :=
  slots - 1

/-- The indices agree. -/
def isEmpty (r : Ring α slots) : Bool :=
  r.head == r.tail

/-- A write would make the indices agree, which means empty. -/
def isFull (r : Ring α slots) : Bool :=
  next r.tail == r.head

/-- The oldest item, left in place. -/
def peek? (r : Ring α slots) : Option α :=
  if r.isEmpty then none else r.cells[r.head]

/-! ## Writing -/

theorem isEmpty_iff_val (r : Ring α slots) : r.isEmpty = true ↔ r.head.val = r.tail.val := by
  simp [isEmpty, Fin.ext_iff]

theorem isFull_iff_val (r : Ring α slots) :
    r.isFull = true ↔ (next r.tail).val = r.head.val := by
  simp [isFull, Fin.ext_iff]

/-- Writes the free slot at the write index and moves that index on. -/
def write (r : Ring α slots) (a : α) (room : r.isFull = false) : Ring α slots where
  cells := r.cells.set r.tail (some a)
  head := r.head
  tail := next r.tail
  live j h := by
    by_cases here : j.val = r.tail.val
    · simp [here]
    · have old : steps r.head j < steps r.head r.tail := by
        have apart : (next r.tail).val ≠ r.head.val := fun e => by
          simp [(isFull_iff_val r).2 e] at room
        have := next_cases r.tail
        have := steps_cases r.head j
        have := steps_cases r.head r.tail
        have := steps_cases r.head (next r.tail)
        have := j.isLt
        have := r.head.isLt
        omega
      have := r.live j old
      rw [Fin.getElem_fin, Vector.getElem_set_ne _ _ (fun e => here e.symm)]
      exact this

/-- Moves the read index past the oldest item. -/
def skip (r : Ring α slots) (held : r.isEmpty = false) : Ring α slots where
  cells := r.cells
  head := next r.head
  tail := r.tail
  live j h := by
    refine r.live j ?_
    have apart : r.head.val ≠ r.tail.val := fun e => by
      simp [(isEmpty_iff_val r).2 e] at held
    have := next_cases r.head
    have := steps_cases r.head j
    have := steps_cases r.head r.tail
    have := steps_cases (next r.head) j
    have := steps_cases (next r.head) r.tail
    have := j.isLt
    have := r.tail.isLt
    omega

/-- Appends an item, or reports `false` and drops it when the ring is full. -/
def push (r : Ring α slots) (a : α) : Ring α slots × Bool :=
  if room : r.isFull = false then (r.write a room, true) else (r, false)

/-- Removes the oldest item and returns it. -/
def pop (r : Ring α slots) : Ring α slots × Option α :=
  if held : r.isEmpty = false then (r.skip held, r.peek?) else (r, none)

/-- Offers items one after the other; those that find the ring full are
dropped. -/
def pushAll (r : Ring α slots) (items : List α) : Ring α slots :=
  items.foldl (fun r a => (r.push a).1) r

/-- Removes up to `n` items, oldest first, and stops early when none is left. -/
def drain (r : Ring α slots) : Nat → Ring α slots × List α
  | 0 => (r, [])
  | n + 1 =>
    match r.pop with
    | (r, none) => (r, [])
    | (r, some a) =>
      let rest := r.drain n
      (rest.1, a :: rest.2)

end Ring

end SerialTerminal
