/-!
# Queues

Items leave a queue in the order in which they entered it.  A queue keeps the items that are
to leave next in order, and behind them the later ones with the last in front, so an item can
be added at little cost however long the queue is; the later items are turned round when the
others have left.

How the items are spread over the two lists does not matter.  What matters is `toList`, and
each operation is known by what it does to it:

* `toList_ofList`, `toList_empty`, `isEmpty_iff`: the items of a new queue, and when there
  are none.
* `toList_enqueue`: an item enters behind the others.
* `toList_of_dequeue?`, `dequeue?_eq_none_iff`: the first item leaves, if there is one.
-/

namespace StreamConformance

/-- Items that wait for their turn. -/
structure Queue (α : Type) where
  front : List α := []
  /-- The items behind those in front, the last one first. -/
  reversed : List α := []

namespace Queue

variable {α : Type}

/-- The items, the one that leaves next first. -/
def toList (q : Queue α) : List α :=
  q.front ++ q.reversed.reverse

/-- A queue of some items, which leave in this order. -/
def ofList (items : List α) : Queue α :=
  { front := items }

/-- A queue without items. -/
def empty : Queue α := {}

/-- The queue has no items. -/
def isEmpty (q : Queue α) : Bool :=
  q.front.isEmpty && q.reversed.isEmpty

/-- Put an item behind the others. -/
def enqueue (item : α) (q : Queue α) : Queue α :=
  { q with reversed := item :: q.reversed }

/-- The first item and the queue behind it. -/
def dequeue? (q : Queue α) : Option (α × Queue α) :=
  match q.front with
  | item :: front => some (item, { q with front := front })
  | [] =>
    match q.reversed.reverse with
    | item :: front => some (item, { front := front })
    | [] => none

@[simp] theorem toList_ofList (items : List α) : (ofList items).toList = items := by
  simp [ofList, toList]

@[simp] theorem toList_empty : (empty : Queue α).toList = [] :=
  rfl

@[simp] theorem isEmpty_iff {q : Queue α} : q.isEmpty ↔ q.toList = [] := by
  simp [isEmpty, toList]

@[simp] theorem toList_enqueue (item : α) (q : Queue α) :
    (q.enqueue item).toList = q.toList ++ [item] := by
  simp [enqueue, toList]

/-- What leaves is the first item, and the others stay. -/
theorem toList_of_dequeue? {q rest : Queue α} {item : α}
    (h : q.dequeue? = some (item, rest)) : q.toList = item :: rest.toList := by
  rcases q with ⟨_ | ⟨a, front⟩, reversed⟩
  · simp only [dequeue?] at h
    split at h
    · rename_i b front hb
      cases h
      simp [toList, hb]
    · cases h
  · cases h
    rfl

/-- Nothing leaves an empty queue, and something leaves any other. -/
theorem dequeue?_eq_none_iff {q : Queue α} : q.dequeue? = none ↔ q.toList = [] := by
  rcases q with ⟨_ | ⟨a, front⟩, reversed⟩
  · simp only [dequeue?, toList, List.nil_append]
    split <;> simp_all
  · simp [dequeue?, toList]

end Queue
end StreamConformance
