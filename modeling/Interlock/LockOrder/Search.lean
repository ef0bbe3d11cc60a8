import Interlock.Config
import Interlock.Event
import Interlock.LockOrder
import Interlock.Targets
/-!
# Search for deadlocks on locks

A section that holds a lock while it enters another section orders its lock before the locks of that
section. A pass takes the sections pair by pair and adds these arcs to the order. Before it adds an
arc it looks for one that leads straight back; an arc back counts only if some section behind it
shares no static lock with the section at hand, since two sections with a common static lock never
run at the same time. The first arc back ends the pass with a conflict.

A repair creates a static avoidance lock and gives it to the section at hand and to every section
behind an arc between the two locks, in either direction. Then the search starts again. The arcs of
the avoidance locks are kept from pass to pass; all others are found anew.
-/

namespace Interlock

/-- What a search for deadlocks on locks found. -/
structure LockSearch where
  /-- The arcs of avoidance locks, and the arcs of the last pass. -/
  order : LockOrder
  status : Status LockConflict
  /-- The count of passes. -/
  iterations : Nat
  /-- The conflicts that were repaired, in order of repair. -/
  repairs : List LockConflict
  /-- The arena after the search. -/
  arena : Arena
  log : List Event
deriving Inhabited

namespace LockSearch

/-- The avoidance locks in order of creation. -/
def avoidanceLocks (s : LockSearch) : List LockNum := s.repairs.filterMap (·.avoidanceLock)

end LockSearch

namespace Arena

/-- The lock numbers of a section, where all its keys have one. -/
def held (a : Arena) (id : SectionId) : List LockNum :=
  match a.sections[id]? with
  | some s => s.lockset.filterMap a.locks.find?
  | none => []

/-- The sections that belong to a group. -/
def groupedSections (a : Arena) : List SectionId :=
  a.sections.zipIdx.filterMap fun (s, id) => if s.isGrouped then some id else none

/-- The pairs of grouped sections of which the first may enter the second, in order. -/
def enteredPairs (a : Arena) : List (SectionId × SectionId) :=
  a.groupedSections.flatMap fun outer =>
    (a.groupedSections.filter (a.mayEnter outer)).map (outer, ·)

end Arena

namespace LockOrder

/-- The locks directly after a lock, as far as some section behind the arc shares no static lock
with the given section. -/
def openSuccessors (o : LockOrder) (held : SectionId → List LockNum) (outer : SectionId)
    (lock : LockNum) : List LockNum :=
  (o.successors lock).filter fun after =>
    (o.labels lock after).any fun label => !Arena.shareStatic (held outer) (held label)

/-- Takes on the arc from a held lock to a requested one. It is refused where the held lock is among
those after the requested one. A static lock that is requested again is refused by an arc to
itself; a lock in the heap may be another object each time. -/
def takeArc (outer inner : SectionId) (requested : LockNum) (after : List LockNum)
    (o : LockOrder) (held : LockNum) : Except (LockOrder × LockConflict) LockOrder :=
  if (held ≠ requested || held.isStatic) && after.contains held then
    .error (o, { outer, inner, held, requested })
  else if held ≠ requested then .ok (o.addArc held requested outer)
  else .ok o

/-- Takes on the arcs from all locks of the outer section to one lock of the inner section. The
locks after that lock are those from before. -/
def takeLock (held : SectionId → List LockNum) (outer inner : SectionId) (o : LockOrder)
    (requested : LockNum) : Except (LockOrder × LockConflict) LockOrder :=
  (held outer).foldlM (takeArc outer inner requested (o.openSuccessors held outer requested)) o

/-- Takes on the arcs of one pair of sections. -/
def takePair (held : SectionId → List LockNum) (o : LockOrder) (pair : SectionId × SectionId) :
    Except (LockOrder × LockConflict) LockOrder :=
  (held pair.2).foldlM (takeLock held pair.1 pair.2) o

/-- The order that a pass starts from: the arcs of the avoidance locks, and the locks of all grouped
sections. -/
def passStart (a : Arena) (permanent : LockOrder) : LockOrder :=
  (a.groupedSections.flatMap a.held).foldl addNode permanent

/-- One pass over all pairs, up to the first conflict. -/
def pass (a : Arena) (permanent : LockOrder) : Except (LockOrder × LockConflict) LockOrder :=
  let table := a.sectionIds.map a.held
  a.enteredPairs.foldlM (takePair fun id => table.getD id []) (passStart a permanent)

end LockOrder

namespace LockSearch

/-- What a search carries from pass to pass. -/
structure Progress where
  arena : Arena
  /-- The arcs of the avoidance locks. -/
  permanent : LockOrder := .empty
  /-- The order of the last pass that met a conflict. -/
  last : LockOrder := .empty
  repairs : List LockConflict := []
  log : List Event := []
deriving Inhabited

/-- The details of a pass that went over the given pairs. -/
def pairEvents (a : Arena) (pairs : List (SectionId × SectionId)) : List Event :=
  pairs.map fun (outer, inner) => .locksBefore (a.nameOf outer) (a.nameOf inner)

/-- The pairs up to the one of a conflict, which is on the list once. -/
def pairsUpTo (c : LockConflict) (pairs : List (SectionId × SectionId)) :
    List (SectionId × SectionId) :=
  pairs.takeWhile (· != (c.outer, c.inner)) ++ [(c.outer, c.inner)]

/-- Gives an avoidance lock to a section, unless it holds it. The lock comes before every lock that
the section held so far. -/
def grant (outer : SectionId) (key : LockKey) (lock : LockNum) (p : Progress) (holder : SectionId) :
    Progress :=
  match p.arena.sections[holder]? with
  | none => p
  | some s =>
    if s.holds key then p
    else { p with
      permanent := (p.arena.held holder).foldl (fun o n => o.addArc lock n holder) p.permanent
      arena := p.arena.modifySection holder fun s => { s with lockset := s.lockset ++ [key] }
      log := p.log ++ [.avoidanceHeld (p.arena.nameOf outer) s.name] }

/-- The sections that a conflict involves: the one at hand, and those behind the arcs between its
two locks. -/
def implicated (o : LockOrder) (c : LockConflict) : List SectionId :=
  c.outer :: (o.labels c.held c.requested ++ o.labels c.requested c.held)

/-- Breaks a conflict that a pass met, by a new avoidance lock. -/
def repair (p : Progress) (o : LockOrder) (c : LockConflict) : Progress :=
  let owner := ((p.arena.sections[c.outer]?).map (·.owner)).getD ""
  let (locks, key, lock) := p.arena.locks.synthesize owner
  let created := { p with
    arena := { p.arena with locks }
    permanent := p.permanent.addNode lock
    log := p.log ++ [.lockDeadlockOn c.held c.requested, .avoidanceCreated lock key.text] }
  let granted := (implicated o c).foldl (grant c.outer key lock) created
  { granted with
    last := o
    repairs := p.repairs ++ [{ c with avoidanceLock := some lock }]
    log := granted.log ++ [.restarting] }

namespace Progress

/-- The number of the pass that comes next. -/
def number (p : Progress) : Nat := p.repairs.length + 1

/-- The log of the next pass, where it goes over the given pairs. -/
def visiting (p : Progress) (pairs : List (SectionId × SectionId)) : List Event :=
  p.log ++ [.pass p.number] ++ pairEvents p.arena pairs

/-- The state after a pass that met a conflict and a repair of it. -/
def repaired (p : Progress) (o : LockOrder) (c : LockConflict) : Progress :=
  repair { p with log := p.visiting (pairsUpTo c p.arena.enteredPairs) } o c

/-- The answer where a pass met no conflict. -/
def finish (p : Progress) (order : LockOrder) : LockSearch where
  order := order
  status := if p.repairs.length = 0 then .acyclic else .repaired p.repairs.length
  iterations := p.number
  repairs := p.repairs
  arena := p.arena
  log := p.visiting p.arena.enteredPairs ++
    [.lockOrderFound order.nodes.size order.arcCount p.repairs.length p.number]

/-- The answer where a conflict is not repaired. The arc that was refused is in the order. -/
def report (p : Progress) (order : LockOrder) (c : LockConflict) : LockSearch where
  order := if c.held = c.requested then order else order.addArc c.held c.requested c.outer
  status := .deadlockReported c
  iterations := p.number
  repairs := p.repairs
  arena := p.arena
  log := p.visiting (pairsUpTo c p.arena.enteredPairs) ++
    [.lockDeadlock, .lockOrderBlocked c.held c.requested]

/-- The answer where the passes are used up. -/
def giveUp (p : Progress) (passes : Nat) : LockSearch where
  order := p.last
  status := .didNotConverge passes p.repairs.getLast?
  iterations := passes
  repairs := p.repairs
  arena := p.arena
  log := p.log ++ [.lockOrderDiverged passes]

end Progress

/-- Passes until one meets no conflict, or until the given number of passes is used up. Without
repair the first conflict is the answer. -/
def run (config : Config) : Nat → Progress → LockSearch
  | 0, p => p.giveUp config.maxIterations
  | left + 1, p =>
    match LockOrder.pass p.arena p.permanent with
    | .ok order => p.finish order
    | .error (order, c) =>
      if config.repair then run config left (p.repaired order c) else p.report order c

end LockSearch

/-- Searches a valid arena for deadlocks on locks, and repairs them if the configuration says so. -/
def Arena.searchLocks (a : Arena) (oracle : Oracle) (config : Config) :
    Except Fault LockSearch := do
  a.validate
  return LockSearch.run config config.maxIterations { arena := a.ensureAllTargets oracle }

end Interlock
