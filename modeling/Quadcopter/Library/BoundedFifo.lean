import Mathlib.Data.List.Infix

/-
Bounded first-in first-out queues, and what has passed through one.

An offer that does not fit is cut short: as much of it as there is room for is
accepted, from its front.
-/

namespace Quadcopter

@[ext] structure BoundedFifo (α : Type) (capacity : Nat) where
  items : List α
  bounded : items.length ≤ capacity

namespace BoundedFifo

variable {α : Type} {capacity : Nat}

def empty : BoundedFifo α capacity := ⟨[], Nat.zero_le _⟩

def room (queue : BoundedFifo α capacity) : Nat :=
  capacity - queue.items.length

theorem room_add_length (queue : BoundedFifo α capacity) :
    queue.room + queue.items.length = capacity :=
  Nat.sub_add_cancel queue.bounded

def accepted (queue : BoundedFifo α capacity) (offered : List α) : List α :=
  offered.take queue.room

def push (queue : BoundedFifo α capacity) (offered : List α) :
    BoundedFifo α capacity where
  items := queue.items ++ queue.accepted offered
  bounded := by
    have account := queue.room_add_length
    have cut := List.length_take_le queue.room offered
    rw [accepted, List.length_append]
    omega

def delivered (queue : BoundedFifo α capacity) (count : Nat) : List α :=
  queue.items.take count

def pop (queue : BoundedFifo α capacity) (count : Nat) :
    BoundedFifo α capacity where
  items := queue.items.drop count
  bounded := by
    have before := queue.bounded
    rw [List.length_drop]
    omega

@[simp] theorem push_items (queue : BoundedFifo α capacity)
    (offered : List α) :
    (queue.push offered).items = queue.items ++ queue.accepted offered := rfl

@[simp] theorem pop_items (queue : BoundedFifo α capacity) (count : Nat) :
    (queue.pop count).items = queue.items.drop count := rfl

theorem accepted_length (queue : BoundedFifo α capacity) (offered : List α) :
    (queue.accepted offered).length = min offered.length queue.room := by
  rw [accepted, List.length_take, Nat.min_comm]

theorem accepted_of_fits (queue : BoundedFifo α capacity) {offered : List α}
    (fits : offered.length ≤ queue.room) :
    queue.accepted offered = offered :=
  List.take_of_length_le fits

theorem push_of_full (queue : BoundedFifo α capacity) (offered : List α)
    (full : queue.room = 0) : queue.push offered = queue := by
  apply BoundedFifo.ext
  rw [push_items, accepted, full, List.take_zero, List.append_nil]

theorem room_push (queue : BoundedFifo α capacity) (offered : List α) :
    (queue.push offered).room = queue.room - offered.length := by
  unfold room
  rw [push_items, List.length_append, accepted_length]
  unfold room
  omega

theorem push_push_of_fits (queue : BoundedFifo α capacity)
    {first second : List α}
    (fits : (first ++ second).length ≤ queue.room) :
    (queue.push first).push second = queue.push (first ++ second) := by
  rw [List.length_append] at fits
  apply BoundedFifo.ext
  rw [push_items, push_items, push_items, accepted_of_fits queue (by omega),
    accepted_of_fits _ (by rw [room_push]; omega),
    accepted_of_fits queue (by rw [List.length_append]; omega),
    List.append_assoc]

theorem pop_pop (queue : BoundedFifo α capacity) (first second : Nat) :
    (queue.pop first).pop second = queue.pop (first + second) := by
  apply BoundedFifo.ext
  simp only [pop_items, List.drop_drop]

theorem delivered_append_pop (queue : BoundedFifo α capacity) (count : Nat) :
    queue.delivered count ++ (queue.pop count).items = queue.items :=
  List.take_append_drop count queue.items

theorem delivered_all (queue : BoundedFifo α capacity) {count : Nat}
    (all : queue.items.length ≤ count) : queue.delivered count = queue.items :=
  List.take_of_length_le all

theorem pop_all (queue : BoundedFifo α capacity) {count : Nat}
    (all : queue.items.length ≤ count) : queue.pop count = empty := by
  apply BoundedFifo.ext
  exact List.drop_of_length_le all

end BoundedFifo

/-- A queue with the whole of what it accepted and of what it delivered. -/
structure FifoHistory (α : Type) (capacity : Nat) where
  queue : BoundedFifo α capacity
  accepted : List α
  delivered : List α
  conserved : delivered ++ queue.items = accepted

namespace FifoHistory

variable {α : Type} {capacity : Nat}

def start : FifoHistory α capacity := ⟨.empty, [], [], rfl⟩

def push (history : FifoHistory α capacity) (offered : List α) :
    FifoHistory α capacity where
  queue := history.queue.push offered
  accepted := history.accepted ++ history.queue.accepted offered
  delivered := history.delivered
  conserved := by
    rw [BoundedFifo.push_items, ← List.append_assoc, history.conserved]

def pop (history : FifoHistory α capacity) (count : Nat) :
    FifoHistory α capacity where
  queue := history.queue.pop count
  accepted := history.accepted
  delivered := history.delivered ++ history.queue.delivered count
  conserved := by
    rw [List.append_assoc, BoundedFifo.delivered_append_pop,
      history.conserved]

theorem delivered_prefix (history : FifoHistory α capacity) :
    history.delivered <+: history.accepted :=
  ⟨history.queue.items, history.conserved⟩

end FifoHistory

end Quadcopter
