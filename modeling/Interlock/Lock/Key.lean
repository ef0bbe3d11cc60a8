import Interlock.Sorted
import Interlock.Identity
/-!
# Lock keys

A lockset names its locks by keys. A key is either an expression of the program, such as
`this.mutex` or `Account.class`, or stands for an avoidance lock that a repair has created.
-/

namespace Interlock

/-- What a lockset names a lock by. -/
inductive LockKey where
  /-- An expression of the program. -/
  | value (name : String)
  /-- An avoidance lock: its serial number, and the class of the section it was created for. -/
  | avoidance (serial : Nat) (owner : String)
deriving DecidableEq, Repr

namespace LockKey

/-- The key stands for an avoidance lock. -/
def isAvoidance : LockKey → Bool
  | value _ => false
  | avoidance .. => true

/-- How a key is shown. -/
def text : LockKey → String
  | value name => name
  | avoidance serial owner => s!"<DeadlockAvoidance#{serial}: {owner}>"

/-- The place of a key in a listing: expressions first, by their text, then avoidance locks by
serial number and class. -/
def rank : LockKey → Nat × Nat × String
  | value name => (0, 0, name)
  | avoidance serial owner => (1, serial, owner)

theorem rank_inj {a b : LockKey} (h : a.rank = b.rank) : a = b := by
  cases a <;> cases b <;> simp_all [rank]

instance : Ranked LockKey where
  before a b := Ranked.before a.rank b.rank
  irrefl a := Ranked.irrefl a.rank
  trans := Ranked.trans
  total h k := rank_inj (Ranked.total h k)

end LockKey

end Interlock
