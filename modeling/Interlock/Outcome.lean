import Interlock.Identity
/-!
# Outcomes

A search for deadlocks ends in one of four ways. The type of the conflicts is a parameter: searches
name sections and groups by number, reports by name.
-/

namespace Interlock

/-- How a search for deadlocks ended. -/
inductive Status (C : Type) where
  /-- There is no deadlock, and nothing was changed. -/
  | acyclic
  /-- There is a deadlock, and nothing was changed. -/
  | deadlockReported (conflict : C)
  /-- Deadlocks were found and repaired, and none is left. -/
  | repaired (repairs : Nat)
  /-- The bound on passes was met while deadlocks were still being repaired. -/
  | didNotConverge (iterations : Nat) (lastConflict : Option C)
deriving DecidableEq, Repr, Inhabited

namespace Status

variable {C D : Type}

/-- The name of an outcome. -/
def label : Status C → String
  | acyclic => "acyclic"
  | deadlockReported _ => "deadlock_reported"
  | repaired _ => "repaired"
  | didNotConverge .. => "did_not_converge"

/-- No deadlock is left. -/
def isDeadlockFree : Status C → Bool
  | acyclic | repaired _ => true
  | deadlockReported _ | didNotConverge .. => false

/-- A deadlock was reported. -/
def isDeadlockReported : Status C → Bool
  | deadlockReported _ => true
  | acyclic | repaired _ | didNotConverge .. => false

/-- Changes the conflict and keeps the outcome. -/
def map (f : C → D) : Status C → Status D
  | acyclic => acyclic
  | deadlockReported c => deadlockReported (f c)
  | repaired n => repaired n
  | didNotConverge n c => didNotConverge n (c.map f)

@[simp] theorem isDeadlockFree_map {f : C → D} {s : Status C} :
    (s.map f).isDeadlockFree = s.isDeadlockFree := by
  cases s <;> rfl

end Status

/-- A deadlock between groups: the outer section's group comes before the inner section's, which
comes before the outer's already. -/
structure GroupConflict where
  outer : SectionId
  inner : SectionId
  outerGroup : GroupId
  innerGroup : GroupId
deriving DecidableEq, Repr, Inhabited

/-- A deadlock on locks: the outer section holds one lock and enters the inner section, which
requests another, and a section that may run meanwhile takes them the other way round. -/
structure LockConflict where
  outer : SectionId
  inner : SectionId
  held : LockNum
  requested : LockNum
  /-- The lock that was created to break the deadlock. -/
  avoidanceLock : Option LockNum := none
deriving DecidableEq, Repr, Inhabited

end Interlock
