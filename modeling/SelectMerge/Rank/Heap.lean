/-!
# Binary heaps

A heap is a complete binary tree (`HeapTree`) with its greatest item on top. The places of a level
fill from the left, and the turns from the top to the `n`-th place are the binary digits of `n`
below its leading one.

`push` puts an item at the first free place and lets it rise (`insertAt`). `pop?` takes out the item
on top: the last item takes its place from the bottom (`replaceFromBottom`). `drain` empties a heap,
least item first: there the last item sinks from the top (`sink`). Nothing is assumed of the order
here: each operation makes the comparisons it states, so the result is fixed even where an order is
not transitive.
-/

namespace SelectMerge

/-- A binary tree with items at its nodes. -/
inductive HeapTree (α : Type) where
  | leaf
  | node (left : HeapTree α) (item : α) (right : HeapTree α)
deriving Repr

namespace HeapTree

variable {α : Type}

/-! ## Views -/

def size : HeapTree α → Nat
  | leaf => 0
  | node l _ r => l.size + r.size + 1

/-- The item on top. -/
def top? : HeapTree α → Option α
  | leaf => none
  | node _ x _ => some x

/-- The items, a node before its subtrees. -/
def toList : HeapTree α → List α
  | leaf => []
  | node l x r => x :: (l.toList ++ r.toList)

/-- The item at place `n`, `depth` levels below the top. -/
def at? (n : Nat) : Nat → HeapTree α → Option α
  | _, leaf => none
  | 0, node _ x _ => some x
  | d + 1, node l _ r => if n.testBit d then at? n d r else at? n d l

/-- The items level by level. -/
def levels (t : HeapTree α) : List α :=
  (List.range t.size).filterMap fun i => t.at? (i + 1) (i + 1).log2

/-- The tree with another item on top. -/
def setTop (x : α) : HeapTree α → HeapTree α
  | leaf => leaf
  | node l _ r => node l x r

/-! ## Steps -/

section Steps

variable (cmp : α → α → Ordering)

/-- Puts `x` at place `n`, `depth` levels down, and lets it rise while it is greater than the item
above. Tells whether it rose to the top of the tree. -/
def insertAt (n : Nat) (x : α) : Nat → HeapTree α → HeapTree α × Bool
  | 0, _ => (node leaf x leaf, true)
  | _ + 1, leaf => (node leaf x leaf, true)
  | d + 1, node l y r =>
    if n.testBit d then
      let (r, onTop) := insertAt n x d r
      if onTop && cmp x y == .gt then (node l x (r.setTop y), true) else (node l y r, false)
    else
      let (l, onTop) := insertAt n x d l
      if onTop && cmp x y == .gt then (node (l.setTop y) x r, true) else (node l y r, false)

/-- Takes out the item at place `n`, `depth` levels down, which has nothing below it. -/
def takeAt? (n : Nat) : Nat → HeapTree α → Option (α × HeapTree α)
  | _, leaf => none
  | 0, node _ x _ => some (x, leaf)
  | d + 1, node l y r =>
    if n.testBit d then (takeAt? n d r).map fun (x, r) => (x, node l y r)
    else (takeAt? n d l).map fun (x, l) => (x, node l y r)

/-- Puts `x` on top in place of the item there and lets it sink while the greater child, the right
one on a tie, is greater. -/
def sink (x : α) : HeapTree α → HeapTree α
  | leaf => leaf
  | node leaf _ r => node leaf x r
  | node (node ll a lr) _ leaf =>
    if cmp x a == .lt then node (sink x (node ll a lr)) a leaf else node (node ll a lr) x leaf
  | node (node ll a lr) _ (node rl b rr) =>
    if cmp a b == .gt then
      if cmp x a == .lt then node (sink x (node ll a lr)) a (node rl b rr)
      else node (node ll a lr) x (node rl b rr)
    else
      if cmp x b == .lt then node (node ll a lr) b (sink x (node rl b rr))
      else node (node ll a lr) x (node rl b rr)

/-- Puts `x` in place of the item on top by moving the greater children up all the way and letting
`x` rise from the bottom. Tells whether it rose to the top again. -/
def replaceFromBottom (x : α) : HeapTree α → HeapTree α × Bool
  | leaf => (leaf, false)
  | node leaf _ r => (node leaf x r, true)
  | node (node ll a lr) _ leaf =>
    let (l, onTop) := replaceFromBottom x (node ll a lr)
    if onTop && cmp x a == .gt then (node (l.setTop a) x leaf, true) else (node l a leaf, false)
  | node (node ll a lr) _ (node rl b rr) =>
    if cmp a b == .gt then
      let (l, onTop) := replaceFromBottom x (node ll a lr)
      if onTop && cmp x a == .gt then (node (l.setTop a) x (node rl b rr), true)
      else (node l a (node rl b rr), false)
    else
      let (r, onTop) := replaceFromBottom x (node rl b rr)
      if onTop && cmp x b == .gt then (node (node ll a lr) x (r.setTop b), true)
      else (node (node ll a lr) b r, false)

/-! ## Operations -/

/-- Adds an item at the first free place. -/
def push (x : α) (t : HeapTree α) : HeapTree α :=
  let n := t.size + 1
  (insertAt cmp n x n.log2 t).1

/-- Takes out the item at the last place. -/
def takeLast? (t : HeapTree α) : Option (α × HeapTree α) :=
  takeAt? t.size t.size.log2 t

/-- Takes out the item on top; the last item takes its place from the bottom. -/
def pop? (t : HeapTree α) : Option (α × HeapTree α) :=
  match t.takeLast? with
  | none => none
  | some (x, leaf) => some (x, leaf)
  | some (x, node l y r) => some (y, (replaceFromBottom cmp x (node l y r)).1)

/-- Takes out the item on top before what is collected, `n` times at most; the last item takes its
place from the top. -/
def drainOnto (collected : List α) : Nat → HeapTree α → List α
  | 0, _ => collected
  | n + 1, t =>
    match t.takeLast? with
    | none => collected
    | some (x, leaf) => x :: collected
    | some (x, node l y r) => drainOnto (y :: collected) n (sink cmp x (node l y r))

/-- All items, least first. -/
def drain (t : HeapTree α) : List α := drainOnto cmp [] t.size t

end Steps

end HeapTree

end SelectMerge
