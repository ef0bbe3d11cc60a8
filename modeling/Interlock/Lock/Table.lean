import Interlock.Fault
import Interlock.Lock.Key
/-!
# The lock table

The table maps keys to lock numbers and keeps, for each number, the allocation sites that the lock
may point to. It only grows: a number that was given out is never taken back, and a key that has a
number keeps it. The absolute value of a lock's number is its slot; slot zero is a placeholder, so
no lock has the number zero.
-/

namespace Interlock

/-- The numbers of the locks, and their points-to sets by slot. -/
structure LockTable where
  /-- The numbered keys, latest first. -/
  numbers : List (LockKey × LockNum) := []
  /-- The points-to sets by slot, from slot one on; slot zero holds none. -/
  slots : List (SortedSet String) := []
  /-- The serial number of the next avoidance lock. The program keeps it in 32 bits without a sign,
  and it is taken to stay below 2^32 here. -/
  nextSerial : Nat := 0
deriving DecidableEq, Inhabited

namespace LockTable

/-- The table without locks. -/
def empty : LockTable := {}

/-- The number that a key stands for. -/
def find? (t : LockTable) (key : LockKey) : Option LockNum := t.numbers.lookup key

/-- The key stands for a lock. -/
def contains (t : LockTable) (key : LockKey) : Bool := (t.find? key).isSome

/-- The number that a key stands for; a key without a number is a fault. -/
def number (t : LockTable) (key : LockKey) : Except Fault LockNum :=
  match t.find? key with
  | some n => .ok n
  | none => .error (.unknownLock key.text)

/-- The count of keys, aliases included. -/
def size (t : LockTable) : Nat := t.numbers.length

/-- The count of slots, the placeholder included. A table is taken to stay below 2^31 of them, since
the program keeps the numbers that are made of slots in 32 bits with a sign. -/
def slotCount (t : LockTable) : Nat := t.slots.length + 1

/-- The number has been given out to a lock, or its negative has. -/
def isAllocated (t : LockTable) (n : LockNum) : Bool := n != 0 && n.natAbs < t.slotCount

/-- The points-to set in the slot of a number. Static locks have the empty one. -/
def pointsTo? (t : LockTable) (n : LockNum) : Option (SortedSet String) :=
  if n = 0 then none else t.slots[n.natAbs - 1]?

/-- Gives a key the number of the next slot, which `sign` makes from the slot, unless the key has a
number already. -/
def register (t : LockTable) (key : LockKey) (sign : Nat → LockNum) (sites : SortedSet String) :
    LockTable × LockNum :=
  match t.find? key with
  | some n => (t, n)
  | none =>
    let n := sign t.slotCount
    ({ t with numbers := (key, n) :: t.numbers, slots := t.slots ++ [sites] }, n)

/-- Registers a class-level lock. -/
def registerStatic (t : LockTable) (key : LockKey) : LockTable × LockNum :=
  t.register key (fun slot => -slot) .empty

/-- Registers a lock in the heap with the allocation sites that it may point to. -/
def registerDynamic (t : LockTable) (key : LockKey) (sites : SortedSet String) :
    LockTable × LockNum :=
  t.register key (fun slot => slot) sites

/-- Lets a key stand for a lock that has a number already. -/
def addAlias (t : LockTable) (key : LockKey) (n : LockNum) : Except Fault LockTable :=
  if !t.isAllocated n then .error (.unknownLock s!"lock #{n}")
  else match t.find? key with
    | some existing =>
      if existing = n then .ok t else .error (.model (.aliasTaken key.text existing n))
    | none => .ok { t with numbers := (key, n) :: t.numbers }

/-- Creates an avoidance lock for a class. It is registered as a static lock, so every section that
holds it excludes every other. The serial number is used up also where the key had a number. -/
def synthesize (t : LockTable) (owner : String) : LockTable × LockKey × LockNum :=
  let key := LockKey.avoidance t.nextSerial owner
  let (t, n) := { t with nextSerial := t.nextSerial + 1 }.registerStatic key
  (t, key, n)

/-- A lockset by lock numbers, such as `[1, 2, -3]`, with a question mark for a key that has
none. -/
def showLockset (t : LockTable) (lockset : List LockKey) : String :=
  let shown := lockset.map fun key =>
    match t.find? key with
    | some n => toString n
    | none => "?"
  "[" ++ ", ".intercalate shown ++ "]"

end LockTable

end Interlock
