import Interlock.Digraph
import Interlock.Identity
/-!
# Orders of locks

An order of locks says which lock is acquired before which, and which sections make it so. It is a
set of locks together with a set of labelled arcs, an arc once for each section that justifies it.
-/

namespace Interlock

/-- Locks, and the arcs between them with the sections that justify them. -/
structure LockOrder where
  nodes : SortedSet LockNum := .empty
  /-- The triple of a lock, a lock acquired after it, and a section that acquires them so. -/
  claims : SortedSet (LockNum × LockNum × SectionId) := .empty
deriving DecidableEq

namespace LockOrder

/-- The order without locks. -/
def empty : LockOrder := {}

instance : Inhabited LockOrder := ⟨empty⟩

/-- Adds a lock. -/
def addNode (o : LockOrder) (n : LockNum) : LockOrder := { o with nodes := o.nodes.insert n }

/-- Adds an arc, justified by a section. -/
def addArc (o : LockOrder) (first after : LockNum) (label : SectionId) : LockOrder where
  nodes := (o.nodes.insert first).insert after
  claims := o.claims.insert (first, after, label)

/-- The section justifies the arc between the locks. -/
def Labelled (o : LockOrder) (first after : LockNum) (label : SectionId) : Prop :=
  (first, after, label) ∈ o.claims

instance (o : LockOrder) (first after : LockNum) (label : SectionId) :
    Decidable (o.Labelled first after label) :=
  inferInstanceAs (Decidable (_ ∈ o.claims))

/-- The sections that justify an arc, in ascending order. There is no arc where there are none. -/
def labels (o : LockOrder) (first after : LockNum) : List SectionId :=
  o.claims.toList.filterMap fun (a, b, s) => if a = first ∧ b = after then some s else none

/-- There is an arc between the locks. -/
def hasArc (o : LockOrder) (first after : LockNum) : Bool := !(o.labels first after).isEmpty

/-- The arcs, each once, in ascending order. -/
def arcs (o : LockOrder) : List (LockNum × LockNum) :=
  (o.claims.toList.map fun (a, b, _) => (a, b)).eraseDups

/-- The locks that come directly after a lock, in ascending order. -/
def successors (o : LockOrder) (n : LockNum) : List LockNum :=
  (o.claims.toList.filterMap fun (a, b, _) => if a = n then some b else none).eraseDups

/-- The arcs that a section justifies, in ascending order. -/
def arcsOf (o : LockOrder) (label : SectionId) : List (LockNum × LockNum) :=
  o.claims.toList.filterMap fun (a, b, s) => if s = label then some (a, b) else none

/-- The count of arcs, whatever the count of their labels. -/
def arcCount (o : LockOrder) : Nat := o.arcs.length

/-- The order without its labels. -/
def toDigraph (o : LockOrder) : Digraph LockNum where
  nodes := o.nodes
  arcs := .ofList o.arcs

/-- The order has a cycle, whatever sections justify it. -/
def isCyclic (o : LockOrder) : Bool := o.toDigraph.isCyclic

end LockOrder

end Interlock
