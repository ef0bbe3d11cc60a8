import Interlock.Config
import Interlock.Outcome
/-!
# Reports

A report gives the answer of an analysis by name: the outcome, the repairs, the order and the
locksets. `Report.text` is the summary for a human reader.
-/

namespace Interlock

/-- Between what two things a conflict is. -/
inductive ConflictKind where
  | group (outerGroup innerGroup : GroupId)
  | lock (held requested : LockNum) (avoidanceLock : Option LockNum)
deriving DecidableEq, Repr, Inhabited

/-- A conflict with the names of its sections. -/
structure NamedConflict where
  outer : String
  inner : String
  kind : ConflictKind
deriving DecidableEq, Repr, Inhabited

/-- An arc of an order, with the names of the sections that justify it. -/
structure NamedArc where
  first : String
  after : String
  labels : List String
deriving DecidableEq, Repr, Inhabited

/-- An avoidance lock and the sections that acquire it. -/
structure HeldLock where
  lock : LockNum
  name : String
  holders : List String
deriving DecidableEq, Repr, Inhabited

/-- The locks of a section in order of acquisition. -/
structure SectionLocks where
  region : String
  group : Option GroupId
  locks : List LockNum
deriving DecidableEq, Repr, Inhabited

/-- The answer of an analysis. -/
structure Report where
  mode : Mode
  status : Status NamedConflict
  iterations : Nat
  repairs : List NamedConflict
  edges : List NamedArc
  avoidanceLocks : List HeldLock
  /-- The count of sections whose lockset was put in another order. -/
  reorderedSections : Nat
  locksets : List SectionLocks
deriving DecidableEq, Repr, Inhabited

/-- A conflict in a sentence. -/
def NamedConflict.text (c : NamedConflict) : String :=
  match c.kind with
  | .group g h =>
    c.outer ++ " (" ++ g.text ++ ") enters " ++ c.inner ++ " (" ++ h.text ++
      ") which already precedes it"
  | .lock held requested avoidance =>
    s!"{c.outer} holds {held} while {c.inner} acquires {requested}, " ++
      "which is already ordered first" ++
      match avoidance with
      | some lock => s!"; broken by {lock}"
      | none => ""

namespace Report

/-- No deadlock is left. -/
def isDeadlockFree (r : Report) : Bool := r.status.isDeadlockFree

/-- The conflict that a summary names beside the repairs. -/
def conflictLines : Status NamedConflict → List String
  | .deadlockReported c => ["  deadlock: " ++ c.text]
  | .didNotConverge _ (some c) => ["  last conflict: " ++ c.text]
  | .didNotConverge _ none | .acyclic | .repaired _ => []

/-- A headline with an indented line for each entry; nothing without entries. -/
def block (headline : String) (entries : List String) : List String :=
  if entries.isEmpty then [] else headline :: entries.map ("    " ++ ·)

/-- The lines of the summary. -/
def lines (r : Report) : List String :=
  ["Lock order analysis (" ++ r.mode.name ++ " mode)",
   "  status:      " ++ r.status.label,
   s!"  iterations:  {r.iterations}",
   s!"  repairs:     {r.repairs.length}",
   s!"  order edges: {r.edges.length}"] ++
  conflictLines r.status ++
  block "  repaired:" (r.repairs.map NamedConflict.text) ++
  block "  avoidance locks:" (r.avoidanceLocks.map fun l =>
    s!"{l.lock} {l.name} held by " ++ ", ".intercalate l.holders) ++
  (if r.reorderedSections = 0 then [] else [s!"  reordered locksets: {r.reorderedSections}"]) ++
  "  locksets:" :: r.locksets.map fun l =>
    "    " ++ l.region ++ " [" ++ ", ".intercalate (l.locks.map toString) ++ "]"

/-- The summary, with a line break after each line. -/
def text (r : Report) : String := String.join (r.lines.map (· ++ "\n"))

end Report

end Interlock
