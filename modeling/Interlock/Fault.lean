import Interlock.Identity
/-!
# What can go wrong

A deadlock is an answer and not a fault. The faults are references to things that do not exist,
arenas whose records contradict each other, and program models that do not resolve. Each cause is a
constructor, and its wording is in `message`.
-/

namespace Interlock

/-- How the records of an arena contradict each other. -/
inductive ArenaFault where
  /-- The section names a group that does not list it. -/
  | notMember (region : String) (group : GroupId)
  /-- The section's set number is not the number of its group. -/
  | wrongNumber (region : String) (number expected : Int)
  /-- The section counts as locked and has no group. -/
  | lockedUngrouped (region : String) (number : Int)
  /-- The group's number is not positive. -/
  | groupNumber (group : GroupId) (number : Int)
  /-- The group lists a section that names another group or none. -/
  | strayMember (group : GroupId) (member : SectionId)
deriving DecidableEq, Repr

/-- What in a program model, or in a call graph or lock table under construction, does not
resolve. -/
inductive ModelFault where
  | unknownMethodId (id : MethodId)
  | unknownSiteId (id : SiteId)
  /-- The key already stands for another lock. -/
  | aliasTaken (key : String) (existing wanted : LockNum)
  | methodTwice (name : String)
  | unknownMethod (name : String)
  | labelTwice (label : String)
  | lockTwice (name : String)
  /-- A static lock is no object in the heap, so it has no allocation sites. -/
  | staticPointsTo (name : String)
  | unknownLabel (region label : String)
  | undeclaredLock (region lock : String)
  | undeclaredGroup (region : String) (group declared : Nat)
deriving DecidableEq, Repr

/-- Why an operation on an arena, a lock table or a call graph, or an analysis of them, failed. -/
inductive Fault where
  /-- No lock has the key, which is given by its text. -/
  | unknownLock (key : String)
  | unknownSection (id : SectionId)
  | unknownGroup (id : GroupId)
  | arena (cause : ArenaFault)
  | model (cause : ModelFault)
deriving DecidableEq, Repr

/-- The wording of a contradiction in an arena. -/
def ArenaFault.message : ArenaFault → String
  | notMember s g => s!"section '{s}' is not a member of its group #{g}"
  | wrongNumber s n e => s!"section '{s}' has set number {n} but its group is numbered {e}"
  | lockedUngrouped s n => s!"section '{s}' is locked (set number {n}) but has no group"
  | groupNumber g n => s!"group #{g} has non-positive number {n}"
  | strayMember g m => s!"group #{g} lists section #{m} which belongs elsewhere"

/-- The wording of a reference that does not resolve. -/
def ModelFault.message : ModelFault → String
  | unknownMethodId n => s!"unknown method #{n}"
  | unknownSiteId n => s!"unknown call site #{n}"
  | aliasTaken k e w => s!"'{k}' is already lock {e} and cannot alias lock {w}"
  | methodTwice m => s!"method '{m}' declared twice"
  | unknownMethod m => s!"unknown method '{m}'"
  | labelTwice l => s!"call site label '{l}' used twice"
  | lockTwice l => s!"lock '{l}' declared twice"
  | staticPointsTo l => s!"static lock '{l}' cannot have a points-to set"
  | unknownLabel s l => s!"section '{s}' invokes unknown call site '{l}'"
  | undeclaredLock s l => s!"section '{s}' acquires undeclared lock '{l}'"
  | undeclaredGroup s g n => s!"section '{s}' refers to group {g} but only {n} declared"

/-- The wording of a fault. -/
def Fault.message : Fault → String
  | unknownLock k => s!"Lock '{k}' is not registered in the lock table"
  | unknownSection n => s!"Critical section #{n} does not exist"
  | unknownGroup n => s!"Critical section group #{n} does not exist"
  | arena c => "Invalid analysis context: " ++ c.message
  | model c => "Invalid program model: " ++ c.message

end Interlock
