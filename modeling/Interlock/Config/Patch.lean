import Interlock.Config
/-!
# Patches

A patch sets some of the fields of a configuration. `Patch.diff` is the patch that leads from one
configuration to another, and `Config.apply_diff` says that it does.
-/

namespace Interlock

/-- The fields of a configuration that are to be set. -/
structure Patch where
  mode : Option Mode := none
  repair : Option Bool := none
  allowSelfEdges : Option Bool := none
  printDebug : Option Bool := none
  maxIterations : Option Nat := none
  reachability : Option Strategy := none
  reorderLocksets : Option Bool := none
  excludedPrefixes : Option (List String) := none
deriving DecidableEq, Repr, Inhabited

namespace Config

/-- Sets the fields that a patch sets. -/
def apply (c : Config) (p : Patch) : Config where
  mode := p.mode.getD c.mode
  repair := p.repair.getD c.repair
  allowSelfEdges := p.allowSelfEdges.getD c.allowSelfEdges
  printDebug := p.printDebug.getD c.printDebug
  maxIterations := p.maxIterations.getD c.maxIterations
  reachability := p.reachability.getD c.reachability
  reorderLocksets := p.reorderLocksets.getD c.reorderLocksets
  excludedPrefixes := p.excludedPrefixes.getD c.excludedPrefixes

/-- The value, if it differs from the other. -/
def changed {α : Type} [DecidableEq α] (value base : α) : Option α :=
  if value = base then none else some value

/-- The patch that sets the fields in which a configuration differs from a base. -/
def diff (c base : Config) : Patch where
  mode := changed c.mode base.mode
  repair := changed c.repair base.repair
  allowSelfEdges := changed c.allowSelfEdges base.allowSelfEdges
  printDebug := changed c.printDebug base.printDebug
  maxIterations := changed c.maxIterations base.maxIterations
  reachability := changed c.reachability base.reachability
  reorderLocksets := changed c.reorderLocksets base.reorderLocksets
  excludedPrefixes := changed c.excludedPrefixes base.excludedPrefixes

theorem getD_changed {α : Type} [DecidableEq α] (value base : α) :
    (changed value base).getD base = value := by
  unfold changed
  split <;> simp_all

/-- A base becomes the configuration again by the patch between them. -/
theorem apply_diff (c base : Config) : base.apply (c.diff base) = c := by
  cases c
  simp [apply, diff, getD_changed]

end Config

end Interlock
