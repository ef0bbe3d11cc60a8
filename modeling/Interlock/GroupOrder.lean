import Interlock.Config
import Interlock.Event
import Interlock.Targets
/-!
# Search for deadlocks between groups

A locked section that enters another orders its group before the other's. A pass takes the locked
sections pair by pair and adds these arcs; sections of one group are left out, unless the
configuration asks for them. Before it adds an arc it asks whether the arc's end already reaches its
start; if so, the pass ends with a conflict.

A repair merges the two groups into the first, and the search starts again. Every merge empties a
group, so there are no more repairs than groups.
-/

namespace Interlock

/-- What a search for deadlocks between groups found. -/
structure GroupSearch where
  /-- The order of the groups in the last pass. -/
  order : Digraph GroupId
  status : Status GroupConflict
  /-- The count of passes. -/
  iterations : Nat
  /-- The conflicts that were repaired, in order of repair. -/
  merges : List GroupConflict
  /-- The arena after the search. -/
  arena : Arena
  log : List Event
deriving Inhabited

/-- A locked section, as the order of groups sees it. -/
structure LockedSection where
  id : SectionId
  record : Section
  group : GroupId

namespace Arena

/-- The sections that take a lock, with their groups. -/
def lockedSections (a : Arena) : List LockedSection :=
  a.sections.zipIdx.filterMap fun (record, id) =>
    match record.group with
    | some group => if record.isLocked then some { id, record, group } else none
    | none => none

/-- The pairs of locked sections that order their groups, in order: the first may enter the second,
and they are of different groups unless pairs of one group count too. -/
def orderingPairs (a : Arena) (selfEdges : Bool) : List (LockedSection × LockedSection) :=
  a.lockedSections.flatMap fun outer =>
    (a.lockedSections.filter fun inner =>
      (outer.record.setNumber != inner.record.setNumber || selfEdges) &&
        outer.record.enters inner.record).map (outer, ·)

end Arena

namespace GroupSearch

/-- The order of a pass, with its reachability. -/
structure Growing where
  order : Digraph GroupId
  reach : Reach GroupId

/-- Takes on the arc of one pair of sections, unless its end already reaches its start. -/
def takePair (g : Growing) (pair : LockedSection × LockedSection) :
    Except (Digraph GroupId × GroupConflict) Growing :=
  let (outer, inner) := pair
  if g.reach.reaches inner.group outer.group then
    .error (g.order, { outer := outer.id, inner := inner.id,
                       outerGroup := outer.group, innerGroup := inner.group })
  else .ok { order := g.order.addArc outer.group inner.group
             reach := g.reach.insert outer.group inner.group }

/-- One pass over all pairs, up to the first conflict. -/
def pass (a : Arena) (config : Config) :
    Except (Digraph GroupId × GroupConflict) (Digraph GroupId) := do
  let start := (a.lockedSections.map (·.group)).foldl Digraph.addNode .empty
  let grown ← (a.orderingPairs config.effectiveAllowSelfEdges).foldlM takePair
    { order := start, reach := .empty config.reachability }
  return grown.order

/-- What a search carries from pass to pass. -/
structure Progress where
  arena : Arena
  /-- The order of the last pass that met a conflict. -/
  last : Digraph GroupId := .empty
  merges : List GroupConflict := []
  log : List Event := []
deriving Inhabited

/-- The details of a pass that went over the given pairs. -/
def pairEvents (pairs : List (LockedSection × LockedSection)) : List Event :=
  pairs.map fun (outer, inner) =>
    .groupBefore outer.record.name inner.record.name outer.group inner.group

/-- The pairs up to the one of a conflict, which is on the list once. -/
def pairsUpTo (c : GroupConflict) : List (LockedSection × LockedSection) →
    List (LockedSection × LockedSection)
  | [] => []
  | pair :: rest =>
    if pair.1.id = c.outer ∧ pair.2.id = c.inner then [pair] else pair :: pairsUpTo c rest

/-- Breaks a conflict that a pass met, by a merge of the two groups. -/
def repair (p : Progress) (order : Digraph GroupId) (c : GroupConflict) :
    Except Fault Progress := do
  let arena ← p.arena.mergeGroups c.outerGroup c.innerGroup
  return { arena
           last := order
           merges := p.merges ++ [c]
           log := p.log ++ [.merging c.innerGroup c.outerGroup] }

/-- Passes until one meets no conflict, or until the given number of passes is used up. Without
repair the first conflict is the answer. -/
def run (config : Config) : Nat → Progress → Except Fault GroupSearch
  | 0, p =>
    .ok { order := p.last
          status := .didNotConverge config.maxIterations p.merges.getLast?
          iterations := config.maxIterations
          merges := p.merges
          arena := p.arena
          log := p.log ++ [.groupOrderDiverged config.maxIterations] }
  | left + 1, p => do
    let number := p.merges.length + 1
    let pairs := p.arena.orderingPairs config.effectiveAllowSelfEdges
    let started := p.log ++ [.pass number]
    match pass p.arena config with
    | .ok order =>
      let merges := p.merges.length
      return { order
               status := if merges = 0 then .acyclic else .repaired merges
               iterations := number
               merges := p.merges
               arena := p.arena
               log := started ++ pairEvents pairs ++
                 [.groupOrderFound order.nodes.size order.arcs.size merges number] }
    | .error (order, c) =>
      let visited := started ++ pairEvents (pairsUpTo c pairs) ++
        [.groupDeadlock (p.arena.nameOf c.outer) (p.arena.nameOf c.inner)]
      if config.repair then
        let repaired ← repair { p with log := visited } order c
        run config left repaired
      else
        return { order := order.addArc c.outerGroup c.innerGroup
                 status := .deadlockReported c
                 iterations := number
                 merges := p.merges
                 arena := p.arena
                 log := visited ++ [.groupOrderBlocked c.outerGroup c.innerGroup] }

end GroupSearch

/-- Searches a valid arena for deadlocks between groups, and repairs them if the configuration says
so. -/
def Arena.searchGroups (a : Arena) (oracle : Oracle) (config : Config) :
    Except Fault GroupSearch := do
  a.validate
  GroupSearch.run config config.maxIterations { arena := a.ensureAllTargets oracle }

end Interlock
