import SelectMerge.Rank.Heap

/-!
# Bounded selection

`TopK cmp` keeps the best items offered to it, as many as its capacity, where `lt` means listed
first. A heap holds them with the worst on top, so a full selection decides a newcomer by one
comparison (`TopK.offer`). Items are stamped as they arrive (`Arrival`) and ties follow the stamps:
the first one seen wins, both when an item has to go and in the order of the output (`TopK.sorted`).
`setCapacity` and `popMany` take out the worst items first.
-/

namespace SelectMerge

/-- An item and its place in the order of arrival. -/
structure Arrival (α : Type) where
  stamp : Nat
  item : α
deriving Repr

namespace Arrival

variable {α : Type}

/-- The order of the items, ties by arrival. -/
def compare (cmp : α → α → Ordering) (a b : Arrival α) : Ordering :=
  (cmp a.item b.item).then (Ord.compare a.stamp b.stamp)

end Arrival

/-- What became of an offered item. -/
inductive Offer (α : Type) where
  | inserted
  | replaced (worst : α)
  | rejected (newcomer : α)
deriving DecidableEq, Repr

/-- A bounded selection under an order. -/
structure TopK {α : Type} (cmp : α → α → Ordering) where
  capacity : Nat
  heap : HeapTree (Arrival α)
  nextStamp : Nat

namespace TopK

variable {α : Type} {cmp : α → α → Ordering}

/-- A selection without items. -/
def empty (capacity : Nat) : TopK cmp := ⟨capacity, .leaf, 0⟩

def size (s : TopK cmp) : Nat := s.heap.size

def isEmpty (s : TopK cmp) : Bool := s.size == 0

/-- The item to go next. -/
def worst? (s : TopK cmp) : Option α := s.heap.top?.map (·.item)

/-- The items as the heap lists them, the worst first. -/
def items (s : TopK cmp) : List α := s.heap.levels.map (·.item)

/-- Offers an item: it enters while there is room, and otherwise displaces the worst item if it
comes strictly before it. -/
def offer (x : α) (s : TopK cmp) : Offer α × TopK cmp :=
  if s.capacity = 0 then (.rejected x, s)
  else
    let newcomer : Arrival α := ⟨s.nextStamp, x⟩
    let next := s.nextStamp + 1
    if s.size < s.capacity then
      (.inserted, ⟨s.capacity, s.heap.push (Arrival.compare cmp) newcomer, next⟩)
    else
      match s.heap.top? with
      | none => (.rejected x, ⟨s.capacity, s.heap, next⟩)
      | some worst =>
        if newcomer.compare cmp worst == .lt then
          (.replaced worst.item, ⟨s.capacity, s.heap.sink (Arrival.compare cmp) newcomer, next⟩)
        else (.rejected x, ⟨s.capacity, s.heap, next⟩)

/-- Offers items in turn and lists what became of each. -/
def offerAll : List α → TopK cmp → List (Offer α) × TopK cmp
  | [], s => ([], s)
  | x :: xs, s =>
    let (o, s) := s.offer x
    let (os, s) := offerAll xs s
    (o :: os, s)

/-- Takes out the worst item. -/
def popWorst (s : TopK cmp) : Option α × TopK cmp :=
  match s.heap.pop? (Arrival.compare cmp) with
  | none => (none, s)
  | some (x, heap) => (some x.item, { s with heap })

/-- Takes out the worst items, `n` of them. -/
def popMany : Nat → TopK cmp → List α × TopK cmp
  | 0, s => ([], s)
  | n + 1, s =>
    match s.popWorst with
    | (none, s) => ([], s)
    | (some x, s) =>
      let (xs, s) := popMany n s
      (x :: xs, s)

/-- Changes the capacity; the items beyond it go, worst first. -/
def setCapacity (k : Nat) (s : TopK cmp) : List α × TopK cmp :=
  popMany (s.size - k) { s with capacity := k }

/-- All items in output order. -/
def sorted (s : TopK cmp) : List α := (s.heap.drain (Arrival.compare cmp)).map (·.item)

/-- Takes out all items in output order; the capacity stays. -/
def drain (s : TopK cmp) : List α × TopK cmp := (s.sorted, { s with heap := .leaf })

/-- The capacity and the items as the heap lists them. -/
def text (itemText : α → String) (s : TopK cmp) : String :=
  "TopKHeap \x7b k: " ++ toString s.capacity ++ ", items: [" ++
    ", ".intercalate (s.items.map itemText) ++ "], .. \x7d"

end TopK

end SelectMerge
