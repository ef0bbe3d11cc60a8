import Interlock.Digraph
/-!
# Reachability while a graph grows

Before an order takes on an arc, the search for deadlocks asks whether the arc's end already reaches
its start. There are two ways to keep the answer: walk the arcs on every question, or keep the set
of all pairs of nodes with a path between them. Both mean a path of at least one arc, so a node
reaches itself through a cycle alone.
-/

namespace Interlock

/-- How reachability is kept. -/
inductive Strategy where
  /-- The arcs are walked on every question. -/
  | successorExpansion
  /-- All pairs with a path between them are kept. -/
  | transitiveClosure
deriving DecidableEq, Repr, Inhabited

/-- The pairs of nodes with a path of at least one arc between them. -/
structure Closure (α : Type) [Ranked α] where
  pairs : SortedSet (α × α) := .empty

namespace Closure

variable {α : Type} [Ranked α] [DecidableEq α]

/-- The nodes that a node reaches, in ascending order. -/
def reachableFrom (c : Closure α) (a : α) : List α :=
  c.pairs.toList.filterMap fun (b, d) => if b = a then some d else none

/-- The nodes that reach a node. -/
def sourcesOf (c : Closure α) (a : α) : List α :=
  c.pairs.toList.filterMap fun (b, d) => if d = a then some b else none

/-- Takes on an arc: whatever reaches its start, and the start, now reaches its end and whatever
that reaches. -/
def insert (c : Closure α) (a b : α) : Closure α :=
  let gained := b :: c.reachableFrom b
  let sources := a :: c.sourcesOf a
  ⟨c.pairs.insertAll (sources.flatMap fun source => gained.map (source, ·))⟩

/-- A path leads from the first node to the second. -/
def reaches (c : Closure α) (a b : α) : Bool := c.pairs.contains (a, b)

end Closure

/-- Reachability over the arcs taken on so far. -/
inductive Reach (α : Type) [Ranked α] where
  | expansion (graph : Digraph α)
  | closure (closure : Closure α)

namespace Reach

variable {α : Type} [Ranked α]

/-- No arc has been taken on. -/
def empty : Strategy → Reach α
  | .successorExpansion => .expansion {}
  | .transitiveClosure => .closure {}

variable [DecidableEq α]

/-- Takes on an arc. -/
def insert (a b : α) : Reach α → Reach α
  | expansion g => .expansion (g.addArc a b)
  | closure c => .closure (c.insert a b)

/-- A path of at least one arc leads from the first node to the second. -/
def reaches (a b : α) : Reach α → Bool
  | expansion g => g.seeks a b
  | closure c => c.reaches a b

end Reach

end Interlock
