import Interlock.Sorted
import Interlock.Walk
/-!
# Directed graphs

A directed graph is a set of nodes and a set of arcs between them. `Digraph.Path` says what it means
to get from one node to another by at least one arc, and `Digraph.reaches` decides it by a walk.
-/

namespace Interlock

/-- Nodes and the arcs between them. -/
structure Digraph (α : Type) [Ranked α] where
  nodes : SortedSet α := .empty
  arcs : SortedSet (α × α) := .empty
deriving DecidableEq

namespace Digraph

variable {α : Type} [Ranked α]

/-- The graph without nodes. -/
def empty : Digraph α := {}

instance : Inhabited (Digraph α) := ⟨empty⟩

/-- Adds a node. -/
def addNode (g : Digraph α) (a : α) : Digraph α := { g with nodes := g.nodes.insert a }

/-- Adds an arc and its ends. -/
def addArc (g : Digraph α) (a b : α) : Digraph α :=
  { nodes := (g.nodes.insert a).insert b, arcs := g.arcs.insert (a, b) }

/-- There is a path of at least one arc from the first node to the second. -/
inductive Path (g : Digraph α) : α → α → Prop where
  | arc {a b} : (a, b) ∈ g.arcs → Path g a b
  | cons {a b c} : (a, b) ∈ g.arcs → Path g b c → Path g a c

variable [DecidableEq α]

/-- The ends of the arcs that leave a node, in ascending order. -/
def successors (g : Digraph α) (a : α) : List α :=
  g.arcs.toList.filterMap fun (b, c) => if b = a then some c else none

/-- The nodes that at least one arc leads to from the given node, nearest first. -/
def reachableFrom (g : Digraph α) (a : α) : List α :=
  Walk.nodes g.successors g.arcs.size (g.successors a)

/-- A path of at least one arc leads from the first node to the second. -/
def reaches (g : Digraph α) (a b : α) : Bool := (g.reachableFrom a).contains b

/-- A path of at least one arc leads from the first node to the second, as a walk along a stack
finds out. It starts from the ends of the arcs that leave the first node, so it does not take that
node as seen. Each end is put on the stack once for each arc at most. -/
def seeks (g : Digraph α) (a b : α) : Bool :=
  Walk.seek g.successors b (g.arcs.size + (g.successors a).length) [] (g.successors a).reverse

/-- Some node is on a cycle. -/
def isCyclic (g : Digraph α) : Bool := g.arcs.toList.any fun (a, _) => g.reaches a a

end Digraph

end Interlock
