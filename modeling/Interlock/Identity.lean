/-!
# Identities

Methods, call sites, critical sections and groups are numbered from zero in order of creation. Locks
have numbers of their own: a negative number is a class-level (static) lock, a positive one a lock
in the heap (dynamic), and zero is never given out.
-/

namespace Interlock

/-- The number of a method in a call graph. -/
abbrev MethodId := Nat

/-- The number of a call site in a call graph. -/
abbrev SiteId := Nat

/-- The number of a critical section in an arena. -/
abbrev SectionId := Nat

/-- The number of a group of critical sections in an arena. -/
abbrev GroupId := Nat

/-- The number of a lock. The program keeps it in 32 bits with a sign; here it is any integer, and
tables are taken to stay below 2^31 slots, so that no number is out of range. -/
abbrev LockNum := Int

namespace LockNum

/-- Class-level locks have negative numbers. -/
def isStatic (n : LockNum) : Bool := decide (n < 0)

/-- Locks in the heap have positive numbers. -/
def isDynamic (n : LockNum) : Bool := decide (0 < n)

end LockNum

/-- How a section is named where only its number is known. -/
def SectionId.text (s : SectionId) : String := "tn" ++ toString s

/-- How a group is named. -/
def GroupId.text (g : GroupId) : String := "group" ++ toString g

end Interlock
