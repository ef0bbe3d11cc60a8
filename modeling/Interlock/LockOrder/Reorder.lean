import Interlock.Arena
import Interlock.Event
import Interlock.LockOrder
import Interlock.Memo
/-!
# Locksets in order

Once an order of locks is known, each grouped section can acquire its locks by it. A section sees
only the arcs of sections that may run at the same time: the arcs of a section with a common static
lock are hidden from it. Among its own locks these arcs may still have cycles, so the locks that lie
on a common cycle are kept together. These clusters follow each other as the arcs say, the one with
the smallest lock number first where the arcs leave a choice. Inside a cluster the locks are
inserted one by one, each before the first lock that it precedes.
-/

namespace Interlock

/-- A plan for the locks of one section, in the order of its lockset, under the arcs it sees. -/
structure LockPlan where
  locks : List LockNum
  visible : List (LockNum × LockNum)

namespace LockPlan

/-- There is a visible arc between two different locks. -/
def arc (p : LockPlan) (a b : LockNum) : Bool := a ≠ b && p.visible.contains (a, b)

/-- The section's locks directly after a lock. -/
def next (p : LockPlan) (a : LockNum) : List LockNum := p.locks.filter (p.arc a)

/-- The section's locks that arcs among them lead to from a lock, given the locks after each. -/
def above (p : LockPlan) (next : LockNum → List LockNum) (a : LockNum) : List LockNum :=
  Walk.nodes next p.locks.length (next a)

/-- Visible arcs among the section's locks lead from the first lock to the second. -/
def leadsTo (p : LockPlan) (a b : LockNum) : Bool := (p.above p.next a).contains b

/-- The smallest of the locks that are the given one or lie on a common cycle with it. It stands for
this cluster. -/
def leader (p : LockPlan) (leadsTo : LockNum → LockNum → Bool) (a : LockNum) : LockNum :=
  (p.locks.filter fun b => leadsTo a b && leadsTo b a).foldl min a

/-- The clusters by their leaders, in ascending order. -/
def leaders (p : LockPlan) (leader : LockNum → LockNum) : List LockNum :=
  (SortedSet.ofList (p.locks.map leader)).toList

/-- Takes from ascending leaders, again and again, the first that no other left leads to. -/
def schedule (leadsTo : LockNum → LockNum → Bool) : Nat → List LockNum → List LockNum
  | 0, _ => []
  | n + 1, left =>
    match left.find? fun a => left.all fun b => b = a || !leadsTo b a with
    | some a => a :: schedule leadsTo n (left.erase a)
    | none => []

/-- Inside a cluster a lock precedes another by an arc between them, or else by its number. -/
def precedes (p : LockPlan) (a b : LockNum) : Bool := p.arc a b || (!p.arc b a && a < b)

/-- Puts a lock, with its position in the lockset, before the first that it precedes. -/
def insertLock (p : LockPlan) (entry : LockNum × Nat) : List (LockNum × Nat) → List (LockNum × Nat)
  | [] => [entry]
  | other :: rest =>
    if p.precedes entry.1 other.1 then entry :: other :: rest
    else other :: p.insertLock entry rest

/-- The locks of one cluster with their positions, in order. -/
def cluster (p : LockPlan) (leader : LockNum → LockNum) (first : LockNum) :
    List (LockNum × Nat) :=
  (p.locks.zipIdx.filter fun entry => leader entry.1 = first).foldl
    (fun sorted entry => p.insertLock entry sorted) []

/-- The positions of the lockset, cluster by cluster. -/
def inClusters (p : LockPlan) (leadsTo : LockNum → LockNum → Bool) (leader : LockNum → LockNum) :
    List Nat :=
  let leaders := p.leaders leader
  (schedule leadsTo leaders.length leaders).flatMap fun first => (p.cluster leader first).map (·.2)

/-- The positions of the lockset in the order in which its locks are to be acquired. -/
def positions (p : LockPlan) : List Nat :=
  let nextTable := Memo.tabulate p.next p.locks
  let next := Memo.ofTable p.next nextTable
  let aboveTable := Memo.tabulate (p.above next) p.locks
  let leadsTo a b := (Memo.ofTable (p.above next) aboveTable a).contains b
  let leaderTable := Memo.tabulate (p.leader leadsTo) p.locks
  p.inClusters leadsTo (Memo.ofTable (p.leader leadsTo) leaderTable)

/-- The tables change nothing. -/
theorem positions_eq (p : LockPlan) :
    p.positions = p.inClusters p.leadsTo (p.leader p.leadsTo) := by
  simp only [positions, Memo.ofTable_tabulate]
  rfl

end LockPlan

namespace Arena

/-- The arcs of a section are hidden from a section with the given static locks: the two exclude
each other. A section of no group has no arcs to see. -/
def hidden (a : Arena) (statics : List LockNum) (other : SectionId) : Except Fault Bool := do
  if statics.isEmpty then return false
  if !(← a.section? other).isGrouped then return true
  let theirs ← a.lockNums other
  return statics.any theirs.contains

/-- The arcs of an order that a section sees, each once: those of the sections in order, and of each
section in ascending order. -/
def visibleArcs (a : Arena) (o : LockOrder) (id : SectionId) :
    Except Fault (List (LockNum × LockNum)) := do
  let statics := (← a.lockNums id).filter LockNum.isStatic
  let seen ← a.sectionIds.filterM fun other =>
    if other = id then return true else return !(← a.hidden statics other)
  return Walk.fresh [] (seen.flatMap o.arcsOf)

/-- The lockset that a section is to have, with the arcs it sees; none for a section of no group. -/
def plannedLockset (a : Arena) (o : LockOrder) (id : SectionId) :
    Except Fault (Option (List (LockNum × LockNum) × List LockKey)) := do
  let s ← a.section? id
  if !s.isGrouped then return none
  let visible ← a.visibleArcs o id
  let locks ← a.lockNums id
  let plan : LockPlan := { locks, visible }
  return some (visible, plan.positions.filterMap (s.lockset[·]?))

/-- What became of the locksets. -/
structure Reordering where
  arena : Arena
  /-- The count of locksets that are in another order now. -/
  changed : Nat := 0
  log : List Event := []
  /-- Why not all sections were treated. -/
  fault : Option Fault := none
deriving Inhabited

/-- Puts the locksets of the given sections in order, one after the other, up to the first fault. -/
def reorderEach (o : LockOrder) : List SectionId → Reordering → Reordering
  | [], r => r
  | id :: rest, r =>
    match r.arena.plannedLockset o id with
    | .error f => { r with fault := some f }
    | .ok none => reorderEach o rest r
    | .ok (some (visible, lockset)) =>
      let seen := r.log ++ [.visibleOrder (r.arena.nameOf id) visible]
      let old := ((r.arena.sections[id]?).map (·.lockset)).getD []
      if lockset = old then reorderEach o rest { r with log := seen }
      else
        let table := r.arena.locks
        reorderEach o rest { r with
          arena := r.arena.modifySection id fun s => { s with lockset }
          changed := r.changed + 1
          log := seen ++ [.reordered (table.showLockset old) (table.showLockset lockset)] }

/-- Puts the lockset of every grouped section in order. -/
def reorder (a : Arena) (o : LockOrder) : Reordering := reorderEach o a.sectionIds { arena := a }

end Arena

end Interlock
