/-
A ring seen from outside: a queue with a bound.

Whoever holds a ring, or one of its halves, sees only the answers to its calls. So
what a ring is worth is said by a list of calls, in any order and from either side, and
by the answers that come back. The measure is a queue that is nothing but a list
(`Fifo.perform`): it appends while fewer than `capacity` items are held, it takes from
the front, and each question is answered from the list.

**No list of calls tells a ring from that queue**, however often the indices have gone
around. Each answer of the ring is computed from its two indices, and the two sides
compute it differently; `perform_eq` is where they meet the list, one call at a time.
What was put in and what came out is then read off the answers alone.
-/
import SerialTerminal.Ring.Contents

set_option autoImplicit false

namespace SerialTerminal

universe u v

variable {α : Type u}

/-! ## Calls and answers -/

/-- What the writing half can be asked. -/
inductive ProducerCall (α : Type u) where
  | push (a : α)
  | hasRoom
  | size
  | isEmpty

/-- What the reading half can be asked. -/
inductive ConsumerCall where
  | pop
  | peek
  | size
  | isEmpty

/-- A call on a ring as a whole, or on one of the halves it is split into. -/
inductive RingCall (α : Type u) where
  | push (a : α)
  | pop
  | peek
  | size
  | isEmpty
  | isFull
  | capacity
  | producer (call : ProducerCall α)
  | consumer (call : ConsumerCall)

inductive RingAnswer (α : Type u) where
  | verdict (b : Bool)
  | item (a : Option α)
  | count (n : Nat)

/-- A call with its answer. -/
structure RingExchange (α : Type u) where
  call : RingCall α
  answer : RingAnswer α

/-- The item that a call offers. -/
def RingCall.offered? : RingCall α → Option α
  | push a => some a
  | producer (.push a) => some a
  | _ => none

namespace RingExchange

/-- The item that the call put in. -/
def accepted? : RingExchange α → Option α
  | ⟨call, .verdict true⟩ => call.offered?
  | _ => none

/-- The item that the call took out. -/
def removed? : RingExchange α → Option α
  | ⟨.pop, .item a⟩ => a
  | ⟨.consumer .pop, .item a⟩ => a
  | _ => none

/-- The items that were put in, oldest first. -/
def accepted (h : List (RingExchange α)) : List α :=
  h.filterMap accepted?

/-- The items that were taken out, oldest first. -/
def removed (h : List (RingExchange α)) : List α :=
  h.filterMap removed?

/-- What a call does not offer is not accepted, whatever the answer. -/
theorem accepted?_eq_none {c : RingCall α} (asks : c.offered? = none) (answer : RingAnswer α) :
    accepted? ⟨c, answer⟩ = none := by
  cases answer with
  | verdict b =>
    cases b with
    | true => exact asks
    | false => rfl
  | item a => rfl
  | count n => rfl

theorem accepted_cons (x : RingExchange α) (h : List (RingExchange α)) :
    accepted (x :: h) = x.accepted?.toList ++ accepted h := by
  unfold accepted
  cases hx : x.accepted? <;> simp [hx]

theorem removed_cons (x : RingExchange α) (h : List (RingExchange α)) :
    removed (x :: h) = x.removed?.toList ++ removed h := by
  unfold removed
  cases hx : x.removed? <;> simp [hx]

end RingExchange

/-- Calls one after the other, to anything that answers them. -/
def callAll {S : Type v} (perform : S → RingCall α → S × RingAnswer α) :
    S → List (RingCall α) → S × List (RingExchange α)
  | s, [] => (s, [])
  | s, c :: rest =>
    let answered := perform s c
    let later := callAll perform answered.1 rest
    (later.1, ⟨c, answered.2⟩ :: later.2)

theorem callAll_append {S : Type v} (perform : S → RingCall α → S × RingAnswer α) (s : S)
    (front back : List (RingCall α)) :
    callAll perform s (front ++ back) =
      let early := callAll perform s front
      let late := callAll perform early.1 back
      (late.1, early.2 ++ late.2) := by
  induction front generalizing s with
  | nil => rfl
  | cons c rest ih =>
    rw [List.cons_append, callAll, ih]
    rfl

namespace Ring

variable {slots : Nat}

/-- A call on a ring, whichever handle it is made on. -/
def perform (r : Ring α slots) : RingCall α → Ring α slots × RingAnswer α
  | .push a => ((r.push a).1, .verdict (r.push a).2)
  | .pop => (r.pop.1, .item r.pop.2)
  | .peek => (r, .item r.peek?)
  | .size => (r, .count r.size)
  | .isEmpty => (r, .verdict r.isEmpty)
  | .isFull => (r, .verdict r.isFull)
  | .capacity => (r, .count r.capacity)
  | .producer (.push a) => ((Producer.push r a).1, .verdict (Producer.push r a).2)
  | .producer .hasRoom => (r, .verdict (Producer.hasRoom r))
  | .producer .size => (r, .count (Producer.size r))
  | .producer .isEmpty => (r, .verdict (Producer.isEmpty r))
  | .consumer .pop => ((Consumer.pop r).1, .item (Consumer.pop r).2)
  | .consumer .peek => (r, .item (Consumer.peek? r))
  | .consumer .size => (r, .count (Consumer.size r))
  | .consumer .isEmpty => (r, .verdict (Consumer.isEmpty r))

end Ring

/-! ## The queue to compare with -/

namespace Fifo

/-- Appends an item while there is room. -/
def push (capacity : Nat) (items : List α) (a : α) : List α × RingAnswer α :=
  if items.length < capacity then (items ++ [a], .verdict true) else (items, .verdict false)

/-- A call on a queue that is a list. It has no halves: who asks makes no difference. -/
def perform (capacity : Nat) (items : List α) : RingCall α → List α × RingAnswer α
  | .push a => push capacity items a
  | .pop => (items.tail, .item items.head?)
  | .peek => (items, .item items.head?)
  | .size => (items, .count items.length)
  | .isEmpty => (items, .verdict items.isEmpty)
  | .isFull => (items, .verdict (items.length == capacity))
  | .capacity => (items, .count capacity)
  | .producer (.push a) => push capacity items a
  | .producer .hasRoom => (items, .verdict (items.length < capacity))
  | .producer .size => (items, .count items.length)
  | .producer .isEmpty => (items, .verdict items.isEmpty)
  | .consumer .pop => (items.tail, .item items.head?)
  | .consumer .peek => (items, .item items.head?)
  | .consumer .size => (items, .count items.length)
  | .consumer .isEmpty => (items, .verdict items.isEmpty)

open RingExchange

/-- A call puts an item in at the end, or takes one out in front, or neither. -/
theorem perform_conserves (capacity : Nat) (items : List α) (c : RingCall α) :
    let x : RingExchange α := ⟨c, (perform capacity items c).2⟩
    items ++ x.accepted?.toList = x.removed?.toList ++ (perform capacity items c).1 := by
  have pushed : ∀ a : α,
      items ++ (accepted? ⟨.push a, (push capacity items a).2⟩).toList =
        (push capacity items a).1 ∧
      items ++ (accepted? ⟨.producer (.push a), (push capacity items a).2⟩).toList =
        (push capacity items a).1 := by
    intro a
    unfold push
    split
    · exact ⟨rfl, rfl⟩
    · exact ⟨List.append_nil items, List.append_nil items⟩
  have popped : items ++ [] = items.head?.toList ++ items.tail := by
    cases items with
    | nil => rfl
    | cons a rest => exact List.append_nil (a :: rest)
  have asked : ∀ (c : RingCall α) (answer : RingAnswer α), c.offered? = none →
      items ++ (accepted? ⟨c, answer⟩).toList = items := by
    intro c answer asks
    rw [accepted?_eq_none asks]
    exact List.append_nil items
  intro x
  rcases c with a | _ | _ | _ | _ | _ | _ | (a | _ | _ | _) | (_ | _ | _ | _)
  case push => exact (pushed a).1
  case producer.push => exact (pushed a).2
  case pop | consumer.pop => exact popped
  all_goals exact asked _ _ rfl

/-- **What went in is what came out and what is left**, in this order. -/
theorem callAll_conserves (capacity : Nat) (items : List α) (calls : List (RingCall α)) :
    let out := callAll (perform capacity) items calls
    items ++ accepted out.2 = removed out.2 ++ out.1 := by
  induction calls generalizing items with
  | nil => exact List.append_nil items
  | cons c rest ih =>
    have first := perform_conserves capacity items c
    have later := ih (perform capacity items c).1
    dsimp only [callAll] at first later ⊢
    rw [accepted_cons, removed_cons, ← List.append_assoc, first, List.append_assoc, later,
      List.append_assoc]

end Fifo

namespace Ring

variable {slots : Nat}

/-! ## One call -/

theorem isEmpty_toList (r : Ring α slots) : r.toList.isEmpty = r.isEmpty := by
  rw [Bool.eq_iff_iff, List.isEmpty_iff, isEmpty_iff]

theorem push_eq (r : Ring α slots) (a : α) :
    ((r.push a).1.toList, (RingAnswer.verdict (r.push a).2 : RingAnswer α)) =
      Fifo.push (slots - 1) r.toList a := by
  rw [toList_push, snd_push, Fifo.push]
  by_cases room : r.toList.length < slots - 1
  · rw [if_pos room, if_pos room, decide_eq_true room]
  · rw [if_neg room, if_neg room, decide_eq_false room]

theorem isFull_eq (r : Ring α slots) : r.isFull = (r.toList.length == slots - 1) := by
  rw [Bool.eq_iff_iff, isFull_iff, beq_iff_eq]

/-- The writer's question is not the negation of a length: there is room when the two
indices would not meet. -/
theorem hasRoom_eq (r : Ring α slots) :
    Producer.hasRoom r = decide (r.toList.length < slots - 1) := by
  have bound := r.size_lt
  rw [Producer.hasRoom_eq, isFull_eq, length_toList]
  by_cases full : r.size = slots - 1
  · have none : ¬ r.size < slots - 1 := by omega
    rw [decide_eq_false none, full]
    simp
  · have some : r.size < slots - 1 := by omega
    rw [decide_eq_true some]
    simp [full]

/-- **A call on a ring is a call on the list it holds.** -/
theorem perform_eq (r : Ring α slots) (c : RingCall α) :
    ((r.perform c).1.toList, (r.perform c).2) = Fifo.perform (slots - 1) r.toList c := by
  have counted : r.size = r.toList.length := r.length_toList.symm
  have none : r.isEmpty = r.toList.isEmpty := r.isEmpty_toList.symm
  rcases c with a | _ | _ | _ | _ | _ | _ | (a | _ | _ | _) | (_ | _ | _ | _)
  case push | producer.push => exact r.push_eq a
  case pop | consumer.pop =>
    obtain ⟨oldest, rest⟩ := r.pop_eq
    exact Prod.ext rest (congrArg RingAnswer.item oldest)
  case peek | consumer.peek => exact Prod.ext rfl (congrArg RingAnswer.item r.peek?_eq)
  case size | producer.size | consumer.size =>
    exact Prod.ext rfl (congrArg RingAnswer.count counted)
  case isEmpty | consumer.isEmpty => exact Prod.ext rfl (congrArg RingAnswer.verdict none)
  case producer.isEmpty =>
    exact Prod.ext rfl (congrArg RingAnswer.verdict ((Producer.isEmpty_eq r).trans none))
  case isFull => exact Prod.ext rfl (congrArg RingAnswer.verdict r.isFull_eq)
  case producer.hasRoom => exact Prod.ext rfl (congrArg RingAnswer.verdict r.hasRoom_eq)
  case capacity => rfl

/-! ## Any calls -/

/-- The list and the answers agree after any calls. -/
theorem callAll_eq (r : Ring α slots) (calls : List (RingCall α)) :
    ((callAll perform r calls).1.toList, (callAll perform r calls).2) =
      callAll (Fifo.perform (slots - 1)) r.toList calls := by
  induction calls generalizing r with
  | nil => rfl
  | cons c rest ih =>
    have first := r.perform_eq c
    have later := ih (r.perform c).1
    dsimp only [callAll]
    rw [← first, ← later]

theorem callAll_conserves (r : Ring α slots) (calls : List (RingCall α)) :
    let out := callAll perform r calls
    r.toList ++ RingExchange.accepted out.2 = RingExchange.removed out.2 ++ out.1.toList := by
  have conserved := Fifo.callAll_conserves (slots - 1) r.toList calls
  rw [← r.callAll_eq calls] at conserved
  exact conserved

/-- **A ring is a queue of `slots - 1` places.** A new one is given any calls, on the whole
ring or on either half in any order. It answers as the list does and holds what the list
holds, so that whatever is asked next is answered alike; and what was taken out, followed by
what is held, is what was accepted. -/
theorem refines_fifo (pos : 0 < slots) (calls : List (RingCall α)) :
    let ring := callAll perform (empty pos : Ring α slots) calls
    let queue := callAll (Fifo.perform (slots - 1)) ([] : List α) calls
    ring.2 = queue.2 ∧ ring.1.toList = queue.1 ∧
      (∀ c, (ring.1.perform c).2 = (Fifo.perform (slots - 1) queue.1 c).2) ∧
      RingExchange.removed ring.2 ++ ring.1.toList = RingExchange.accepted ring.2 := by
  intro ring queue
  have same := (empty pos : Ring α slots).callAll_eq calls
  rw [toList_empty] at same
  have held : ring.1.toList = queue.1 := congrArg Prod.fst same
  have answers : ring.2 = queue.2 := congrArg Prod.snd same
  have conserved := (empty pos : Ring α slots).callAll_conserves calls
  rw [toList_empty] at conserved
  refine ⟨answers, held, ?_, conserved.symm⟩
  intro c
  rw [← held, ← ring.1.perform_eq c]

/-- Three slots, with the writer and the reader taking turns until both indices have gone
around; the third item finds the ring full. -/
theorem refines_fifo_around_the_circle :
    0 < 3 ∧
      (let calls : List (RingCall Nat) :=
        [.push 1, .producer (.push 2), .producer .hasRoom, .push 3, .consumer .pop,
          .producer (.push 4), .pop, .producer (.push 5), .consumer .size, .isFull]
      let ring := callAll perform (empty (by decide) : Ring Nat 3) calls
      ring.1.head.val = 2 ∧ ring.1.tail.val = 1 ∧ RingExchange.removed ring.2 = [1, 2] ∧
        ring.1.toList = [4, 5] ∧ RingExchange.accepted ring.2 = [1, 2, 4, 5]) := by
  refine ⟨by decide, ?_⟩
  intro calls ring
  have refines := refines_fifo (by decide : 0 < 3) calls
  have removed : RingExchange.removed ring.2 = [1, 2] := by
    rw [refines.1]
    rfl
  have held : ring.1.toList = [4, 5] := refines.2.1
  refine ⟨by decide, by decide, removed, held, ?_⟩
  rw [← refines.2.2.2, removed, held]
  rfl

end Ring

end SerialTerminal
