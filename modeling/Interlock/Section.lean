import Interlock.Lock.Key
/-!
# Critical sections and groups

A critical section is a region of code under one or more locks. Sections that are thought to guard a
common lock form a group, and each of them carries its group's number.
-/

namespace Interlock

/-- A region of code under one or more locks. -/
structure Section where
  name : String
  /-- The method that enters the region. -/
  method : MethodId
  /-- The class that declares `method`; avoidance locks carry its name. -/
  owner : String
  /-- The call sites inside the region, each once. -/
  invokes : List SiteId := []
  /-- The locks in the order of acquisition. -/
  lockset : List LockKey := []
  /-- The group, unless the section is not classified. -/
  group : Option GroupId := none
  /-- The number of the group. A number that is not positive means that the section takes no
  lock. -/
  setNumber : Int := 0
  /-- The methods that the section may reach, once they are known. -/
  targets : Option (SortedSet MethodId) := none
deriving DecidableEq, Inhabited

namespace Section

/-- The section takes part in the order of groups. -/
def isLocked (s : Section) : Bool := decide (0 < s.setNumber)

/-- The section takes part in the order of locks. -/
def isGrouped (s : Section) : Bool := s.group.isSome

/-- The lockset names the key. -/
def holds (s : Section) (key : LockKey) : Bool := s.lockset.contains key

/-- Adds call sites that are not yet among the section's. -/
def addInvokes (s : Section) (sites : List SiteId) : Section :=
  { s with invokes := sites.foldl (fun known site =>
      if known.contains site then known else known ++ [site]) s.invokes }

end Section

/-- Sections that are thought to guard a common lock. -/
structure Group where
  /-- The number that each member carries. -/
  number : Int
  members : SortedSet SectionId := .empty
deriving DecidableEq, Inhabited

end Interlock
