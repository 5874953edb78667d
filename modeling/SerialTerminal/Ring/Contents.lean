/-
What a ring holds, as a list.

`Ring.toList` is the view in which the operations of a ring are stated: the
items held, oldest first. Through it the circle disappears. **Writing appends at
the end unless `slots - 1` items are held, reading takes from the front, and no
other list than the one before is needed to say either**, however often the
indices have gone around.
-/
import SerialTerminal.Ring.Halves

set_option autoImplicit false

namespace SerialTerminal

universe u

namespace Ring

variable {α : Type u} {slots : Nat}

/-! ## The view -/

/-- The index of the slot `i` places behind the oldest item. -/
def slotAt (r : Ring α slots) (i : Nat) : Nat :=
  if r.head.val + i < slots then r.head.val + i else r.head.val + i - slots

/-- The two ways to lie on the circle. -/
theorem slotAt_cases (r : Ring α slots) (i : Nat) :
    (r.head.val + i < slots ∧ r.slotAt i = r.head.val + i) ∨
      (slots ≤ r.head.val + i ∧ r.slotAt i = r.head.val + i - slots) := by
  unfold slotAt
  split <;> omega

/-- The write index is ahead of the read index or has gone around. -/
theorem size_cases (r : Ring α slots) :
    (r.head.val ≤ r.tail.val ∧ r.size = r.tail.val - r.head.val) ∨
      (r.tail.val < r.head.val ∧ r.size = slots - r.head.val + r.tail.val) := by
  exact steps_cases r.head r.tail

/-- A ring never holds as many items as it has slots. -/
theorem size_lt (r : Ring α slots) : r.size < slots := by
  have := r.size_cases
  have := r.head.isLt
  have := r.tail.isLt
  omega

theorem slotAt_lt (r : Ring α slots) {i : Nat} (h : i < r.size) : r.slotAt i < slots := by
  have := r.slotAt_cases i
  have := r.size_lt
  have := r.head.isLt
  omega

/-- The slot `i` places behind the oldest item. -/
def slot (r : Ring α slots) (i : Fin r.size) : Fin slots :=
  ⟨r.slotAt i, r.slotAt_lt i.isLt⟩

@[simp] theorem val_slot (r : Ring α slots) (i : Fin r.size) :
    (r.slot i).val = r.slotAt i := rfl

/-- The slots from the read index up to the write index hold an item each. -/
theorem isSome_slot (r : Ring α slots) (i : Fin r.size) : (r.cells[r.slot i]).isSome := by
  refine r.live (r.slot i) ?_
  have := r.slotAt_cases i
  have := i.isLt
  have := r.size_lt
  have := r.head.isLt
  have way := steps_cases r.head (r.slot i)
  rw [val_slot] at way
  change steps r.head (r.slot i) < r.size
  omega

/-- The item `i` places behind the oldest one. -/
def item (r : Ring α slots) (i : Fin r.size) : α :=
  (r.cells[r.slot i]).get (r.isSome_slot i)

/-- **The items held, oldest first.** -/
def toList (r : Ring α slots) : List α :=
  List.ofFn r.item

@[simp] theorem length_toList (r : Ring α slots) : r.toList.length = r.size := by
  simp [toList]

/-- The list names the live slots in their order around the circle. -/
theorem getElem?_toList (r : Ring α slots) {i : Nat} (h : i < r.size) :
    r.toList[i]? = r.cells[r.slotAt i]?.join := by
  have := r.slotAt_lt h
  simp [toList, item, slot, h, this]

/-! ## Size -/

theorem isEmpty_iff_size (r : Ring α slots) : r.isEmpty = true ↔ r.size = 0 := by
  have := r.size_cases
  have := r.head.isLt
  rw [isEmpty_iff_val]
  omega

/-- The ring is empty when it holds nothing. -/
theorem isEmpty_iff (r : Ring α slots) : r.isEmpty = true ↔ r.toList = [] := by
  rw [isEmpty_iff_size, ← List.length_eq_zero_iff, length_toList]

theorem isFull_iff_size (r : Ring α slots) : r.isFull = true ↔ r.size = slots - 1 := by
  have := r.size_cases
  have := r.head.isLt
  have := next_cases r.tail
  rw [isFull_iff_val]
  omega

/-- **The ring is full when it holds one item less than it has slots.** -/
theorem isFull_iff (r : Ring α slots) : r.isFull = true ↔ r.toList.length = slots - 1 := by
  rw [isFull_iff_size, length_toList]

@[simp] theorem size_empty (pos : 0 < slots) : (empty pos : Ring α slots).size = 0 := by
  rw [← isEmpty_iff_size]
  simp [isEmpty, empty]

@[simp] theorem toList_empty (pos : 0 < slots) : (empty pos : Ring α slots).toList = [] := by
  rw [← isEmpty_iff, isEmpty_iff_size, size_empty]

/-! ## Writing -/

@[simp] theorem head_write (r : Ring α slots) (a : α) (room : r.isFull = false) :
    (r.write a room).head = r.head := rfl

@[simp] theorem tail_write (r : Ring α slots) (a : α) (room : r.isFull = false) :
    (r.write a room).tail = next r.tail := rfl

/-- Writing takes one free slot. -/
theorem size_write (r : Ring α slots) (a : α) (room : r.isFull = false) :
    (r.write a room).size = r.size + 1 := by
  have full : ¬ r.size = slots - 1 := fun h => by simp [(isFull_iff_size r).2 h] at room
  have := r.size_cases
  have after := (r.write a room).size_cases
  have := next_cases r.tail
  have := r.head.isLt
  rw [head_write, tail_write] at after
  omega

/-- Writing leaves every live slot where it is and appends at the end. -/
theorem toList_write (r : Ring α slots) (a : α) (room : r.isFull = false) :
    (r.write a room).toList = r.toList ++ [a] := by
  have grown := size_write r a room
  have held := r.size_cases
  have := r.head.isLt
  have := r.tail.isLt
  refine List.ext_getElem? fun i => ?_
  have place := r.slotAt_cases i
  by_cases old : i < r.size
  · have apart : r.tail.val ≠ r.slotAt i := by omega
    rw [getElem?_toList _ (by omega), List.getElem?_append_left (by simpa using old),
      getElem?_toList _ old]
    change (r.cells.set r.tail (some a))[r.slotAt i]?.join = _
    rw [Vector.getElem?_set_ne _ apart]
  · by_cases last : i = r.size
    · have there : r.slotAt i = r.tail.val := by omega
      rw [getElem?_toList _ (by omega), List.getElem?_append_right (by simp [last])]
      change (r.cells.set r.tail (some a))[r.slotAt i]?.join = _
      rw [there, last]
      simp
    · rw [List.getElem?_eq_none (by rw [length_toList]; omega), List.getElem?_eq_none]
      simp only [List.length_append, length_toList, List.length_singleton]
      omega

/-- A write succeeds exactly when fewer than `slots - 1` items are held. -/
theorem snd_push (r : Ring α slots) (a : α) :
    (r.push a).2 = decide (r.toList.length < slots - 1) := by
  have hlt := r.size_lt
  unfold push
  split
  next room =>
    have : ¬ r.size = slots - 1 := fun h => by simp [(isFull_iff_size r).2 h] at room
    simp only [length_toList]
    exact (decide_eq_true (by omega)).symm
  next full =>
    have := (isFull_iff_size r).1 (by simpa using full)
    simp only [length_toList]
    exact (decide_eq_false (by omega)).symm

/-- **A write appends the item, or drops it when the ring is full.** -/
theorem toList_push (r : Ring α slots) (a : α) :
    (r.push a).1.toList = if r.toList.length < slots - 1 then r.toList ++ [a] else r.toList := by
  have kept := snd_push r a
  unfold push at kept ⊢
  split
  next room =>
    rw [dif_pos room] at kept
    rw [if_pos (of_decide_eq_true kept.symm), toList_write]
  next full =>
    rw [dif_neg full] at kept
    rw [if_neg (of_decide_eq_false kept.symm)]

/-! ## Reading -/

@[simp] theorem head_skip (r : Ring α slots) (held : r.isEmpty = false) :
    (r.skip held).head = next r.head := rfl

@[simp] theorem tail_skip (r : Ring α slots) (held : r.isEmpty = false) :
    (r.skip held).tail = r.tail := rfl

/-- The item in sight is the oldest one. -/
theorem peek?_eq (r : Ring α slots) : r.peek? = r.toList.head? := by
  unfold peek?
  split
  next none => rw [(isEmpty_iff r).1 none]; rfl
  next some =>
    have held : 0 < r.size := Nat.pos_of_ne_zero fun h => some ((isEmpty_iff_size r).2 h)
    have first : r.slotAt 0 = r.head.val := by
      have := r.slotAt_cases 0
      have := r.head.isLt
      omega
    rw [List.head?_eq_getElem?, getElem?_toList r held, first]
    simp

/-- Reading frees one slot. -/
theorem size_skip (r : Ring α slots) (held : r.isEmpty = false) :
    (r.skip held).size + 1 = r.size := by
  have some : ¬ r.size = 0 := fun h => by simp [(isEmpty_iff_size r).2 h] at held
  have := r.size_cases
  have after := (r.skip held).size_cases
  have := next_cases r.head
  have := r.tail.isLt
  rw [head_skip, tail_skip] at after
  omega

/-- Reading takes the first item away and leaves the others in order. -/
theorem toList_skip (r : Ring α slots) (held : r.isEmpty = false) :
    (r.skip held).toList = r.toList.tail := by
  have shrunk := size_skip r held
  refine List.ext_getElem? fun i => ?_
  rw [List.getElem?_tail]
  by_cases old : i < (r.skip held).size
  · have same : (r.skip held).slotAt i = r.slotAt (i + 1) := by
      have here := (r.skip held).slotAt_cases i
      have := r.slotAt_cases (i + 1)
      have := next_cases r.head
      have := r.size_lt
      rw [head_skip] at here
      omega
    rw [getElem?_toList _ old, getElem?_toList _ (by omega), same]
    rfl
  · rw [List.getElem?_eq_none (by rw [length_toList]; omega),
      List.getElem?_eq_none (by rw [length_toList]; omega)]

/-- **A read returns the oldest item and takes it away.** -/
theorem pop_eq (r : Ring α slots) :
    r.pop.2 = r.toList.head? ∧ r.pop.1.toList = r.toList.tail := by
  unfold pop
  split
  next held => exact ⟨r.peek?_eq, toList_skip r held⟩
  next none =>
    have := (isEmpty_iff r).1 (by simpa using none)
    simp [this]

/-! ## Runs of writes and reads -/

@[simp] theorem pushAll_nil (r : Ring α slots) : r.pushAll [] = r := rfl

@[simp] theorem pushAll_cons (r : Ring α slots) (a : α) (as : List α) :
    r.pushAll (a :: as) = (r.push a).1.pushAll as := rfl

/-- Of the items offered, as many are kept as there is room for. -/
theorem toList_pushAll (r : Ring α slots) (items : List α) :
    (r.pushAll items).toList = r.toList ++ items.take (slots - 1 - r.toList.length) := by
  induction items generalizing r with
  | nil => simp
  | cons a as ih =>
    rw [pushAll_cons, ih, toList_push]
    split
    next room =>
      obtain ⟨k, hk⟩ : ∃ k, slots - 1 - r.toList.length = k + 1 :=
        ⟨slots - 1 - r.toList.length - 1, by omega⟩
      have : slots - 1 - (r.toList ++ [a]).length = k := by
        simp only [List.length_append, List.length_singleton]
        omega
      rw [this, hk, List.take_succ_cons, List.append_assoc]
      rfl
    next full =>
      have : slots - 1 - r.toList.length = 0 := by omega
      rw [this, List.take_zero, List.take_zero]

theorem toList_pushAll_of_room {r : Ring α slots} {items : List α}
    (room : r.toList.length + items.length ≤ slots - 1) :
    (r.pushAll items).toList = r.toList ++ items := by
  rw [toList_pushAll, List.take_of_length_le]
  omega

theorem pushAll_append (r : Ring α slots) (front back : List α) :
    r.pushAll (front ++ back) = (r.pushAll front).pushAll back :=
  List.foldl_append

/-- **Draining takes items from the front**: the first `n` are returned and the
rest stays. -/
theorem drain_eq (r : Ring α slots) (n : Nat) :
    (r.drain n).2 = r.toList.take n ∧ (r.drain n).1.toList = r.toList.drop n := by
  induction n generalizing r with
  | zero => simp [drain]
  | succ n ih =>
    have hpop := pop_eq r
    rw [drain]
    cases h : r.toList with
    | nil =>
      rw [h] at hpop
      rcases hp : r.pop with ⟨r', o⟩
      rw [hp] at hpop
      obtain ⟨rfl, hr⟩ := hpop
      simpa using hr
    | cons a as =>
      rw [h] at hpop
      rcases hp : r.pop with ⟨r', o⟩
      rw [hp] at hpop
      obtain ⟨rfl, hr⟩ := hpop
      have hr : r'.toList = as := hr
      simp [ih r', hr]

/-! ## The two halves -/

/-- The writer has room exactly when the ring is not full. -/
theorem Producer.hasRoom_eq (r : Ring α slots) : Producer.hasRoom r = !r.isFull := rfl

/-- Both halves agree on when nothing is held. -/
theorem Producer.isEmpty_eq (r : Ring α slots) : Producer.isEmpty r = Consumer.isEmpty r := by
  have h := isEmpty_iff_size r
  change (r.size == 0) = r.isEmpty
  cases e : r.isEmpty <;> simp_all

end Ring

end SerialTerminal
