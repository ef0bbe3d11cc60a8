import Interlock.CallGraph
import Interlock.GroupOrder
import Interlock.LockOrder.Reorder
import Interlock.LockOrder.Search
import Interlock.Report
/-!
# Analysis

An analysis checks the arena, searches for deadlocks in the mode of its configuration, puts the
locksets in order where that is asked for and no deadlock is left, and reports by name. An arena
that passes `Arena.validate` has a report; no other fault can arise.
-/

namespace Interlock

/-- The answer of an analysis, what it left of the arena, and what it logged. -/
structure Analysis where
  report : Report
  arena : Arena
  log : List Event
deriving Inhabited

namespace Arena

/-- A conflict between groups with the names of its sections. -/
def nameGroupConflict (a : Arena) (c : GroupConflict) : NamedConflict where
  outer := a.nameOf c.outer
  inner := a.nameOf c.inner
  kind := .group c.outerGroup c.innerGroup

/-- A conflict on locks with the names of its sections. -/
def nameLockConflict (a : Arena) (c : LockConflict) : NamedConflict where
  outer := a.nameOf c.outer
  inner := a.nameOf c.inner
  kind := .lock c.held c.requested c.avoidanceLock

/-- The locks of all sections. -/
def sectionLocks (a : Arena) : List SectionLocks :=
  a.sections.zipIdx.map fun (s, id) => { region := s.name, group := s.group, locks := a.held id }

/-- The sections that hold a lock, each with the first key of its lockset that stands for it. -/
def holdersOf (a : Arena) (lock : LockNum) : List (Section × LockKey) :=
  a.sections.filterMap fun s =>
    (s.lockset.find? fun key => a.locks.find? key == some lock).map (s, ·)

/-- An avoidance lock with its holders; it is named by the key of the last of them. -/
def heldLock (a : Arena) (lock : LockNum) : HeldLock where
  lock := lock
  name := (((a.holdersOf lock).getLast?).map (·.2.text)).getD ""
  holders := (a.holdersOf lock).map (·.1.name)

/-- The arcs of an order of groups. -/
def groupArcs (order : Digraph GroupId) : List NamedArc :=
  order.arcs.toList.map fun (g, h) => { first := g.text, after := h.text, labels := [] }

/-- The arcs of an order of locks, with the sections that justify them. -/
def lockArcs (a : Arena) (order : LockOrder) : List NamedArc :=
  order.arcs.map fun (m, n) =>
    { first := toString m, after := toString n, labels := (order.labels m n).map a.nameOf }

/-- The analysis in group mode. -/
def analyzeGroups (a : Arena) (oracle : Oracle) (config : Config) : Except Fault Analysis := do
  let found ← a.searchGroups oracle config
  let after := found.arena
  return {
    report := {
      mode := .group
      status := found.status.map after.nameGroupConflict
      iterations := found.iterations
      repairs := found.merges.map after.nameGroupConflict
      edges := groupArcs found.order
      avoidanceLocks := []
      reorderedSections := 0
      locksets := after.sectionLocks }
    arena := after
    log := found.log }

/-- The analysis in lockset mode. -/
def analyzeLocksets (a : Arena) (oracle : Oracle) (config : Config) : Except Fault Analysis := do
  let found ← a.searchLocks oracle config
  let reordering : Reordering :=
    if config.reorderLocksets && found.status.isDeadlockFree then found.arena.reorder found.order
    else { arena := found.arena }
  match reordering.fault with
  | some f => throw f
  | none =>
    let after := reordering.arena
    return {
      report := {
        mode := .lockset
        status := found.status.map after.nameLockConflict
        iterations := found.iterations
        repairs := found.repairs.map after.nameLockConflict
        edges := after.lockArcs found.order
        avoidanceLocks := found.avoidanceLocks.map after.heldLock
        reorderedSections := reordering.changed
        locksets := after.sectionLocks }
      arena := after
      log := found.log ++ reordering.log }

/-- The last event of an analysis. -/
def finished (r : Report) : Event :=
  .finished r.mode.name r.status.label r.iterations r.repairs.length

/-- The analysis of an arena, with calls resolved by the oracle. -/
def analyze (a : Arena) (oracle : Oracle) (config : Config) : Except Fault Analysis := do
  a.validate
  let analysis ← match config.mode with
    | .group => a.analyzeGroups oracle config
    | .lockset => a.analyzeLocksets oracle config
  return { analysis with log := analysis.log ++ [finished analysis.report] }

end Arena

/-- An arena and the call graph behind it. -/
structure Program where
  arena : Arena
  calls : CallGraph
deriving DecidableEq, Inhabited

/-- The analysis of a program under the exclusions of the configuration. The exclusions stay in
force afterwards. -/
def Program.analyze (p : Program) (config : Config) :
    Program × Except Fault (Report × List Event) :=
  let calls := { p.calls with excluded := config.excludedPrefixes }
  match p.arena.analyze calls.reachable config with
  | .ok analysis => ({ arena := analysis.arena, calls }, .ok (analysis.report, analysis.log))
  | .error f => ({ p with calls }, .error f)

end Interlock
