import Interlock.Reach
import Interlock.Text.Caseless
/-!
# Configuration

A configuration says which order is analysed, over groups or over locks, whether deadlocks are
repaired, and how far the search goes. Presets are the configurations that users start from.
`Config.validate` states which settings go together.
-/

namespace Interlock

/-- What the analysis orders. -/
inductive Mode where
  /-- Groups of sections; a repair merges groups. -/
  | group
  /-- Locks; a repair adds an avoidance lock. -/
  | lockset
deriving DecidableEq, Repr, Inhabited

namespace Mode

/-- The modes in order of declaration. -/
def all : List Mode := [group, lockset]

/-- The spelling of a mode. -/
def name : Mode → String
  | group => "group"
  | lockset => "lockset"

end Mode

namespace Strategy

/-- The strategies in order of declaration. -/
def all : List Strategy := [successorExpansion, transitiveClosure]

/-- The spelling of a strategy. -/
def name : Strategy → String
  | successorExpansion => "successor_expansion"
  | transitiveClosure => "transitive_closure"

end Strategy

/-- A named configuration to start from. -/
inductive Preset where
  /-- Report the first deadlock and change nothing. -/
  | detect
  /-- Repair every deadlock and put the locksets in order. -/
  | repair
  /-- The defaults, for a user who sets everything. -/
  | custom
deriving DecidableEq, Repr, Inhabited

namespace Preset

/-- The presets in order of declaration. -/
def all : List Preset := [detect, repair, custom]

/-- The spelling of a preset. -/
def name : Preset → String
  | detect => "detect"
  | repair => "repair"
  | custom => "custom"

end Preset

/-- How an analysis is run. -/
structure Config where
  mode : Mode := .lockset
  /-- Repair deadlocks and not only report the first. -/
  repair : Bool := false
  /-- Order sections of one group against each other. Counts in group mode and without repair. -/
  allowSelfEdges : Bool := false
  /-- Log the details at the level of debugging and not of tracing. -/
  printDebug : Bool := false
  /-- The number of passes after which the search gives up. -/
  maxIterations : Nat := 1000
  reachability : Strategy := .successorExpansion
  /-- Put the locksets in order once there is no deadlock. Counts in lockset mode. -/
  reorderLocksets : Bool := false
  /-- Starts of method names whose methods are opaque to the analysis. -/
  excludedPrefixes : List String := []
deriving DecidableEq, Repr, Inhabited

/-- Two settings that exclude each other. -/
inductive Conflict where
  /-- A deadlock of a group with itself cannot be repaired by a merge. -/
  | selfEdgesWithRepair
  /-- There are no locks in an order of groups. -/
  | reorderInGroupMode
  /-- Every name starts with the empty text. -/
  | emptyPrefix
deriving DecidableEq, Repr

/-- Why a configuration is refused, or cannot be read. -/
inductive ConfigFault where
  | iterationRange (value : Nat)
  | missingVersion
  | unsupportedVersion (found : Nat)
  | unknownPreset (text : String)
  /-- The text is none of the spellings of a field's values. -/
  | unknownValue (field value : String) (valid : List String)
  | conflict (cause : Conflict)
deriving DecidableEq, Repr

/-- The largest number of passes that may be set. -/
def Config.iterationLimit : Nat := 1000000

/-- What is wrong with two settings. -/
def Conflict.issue : Conflict → String
  | selfEdgesWithRepair => "allow_self_edges is set while repair is enabled"
  | reorderInGroupMode => "reorder_locksets requires a lock-number order graph"
  | emptyPrefix => "empty excluded method prefix '' hides every call"

/-- What helps against it. -/
def Conflict.fix : Conflict → String
  | selfEdgesWithRepair =>
    "Disable allow_self_edges (self edges cannot be repaired by merging)"
  | reorderInGroupMode => "Use mode: lockset or disable reorder_locksets"
  | emptyPrefix => "Remove the empty entry from excluded_method_prefixes"

/-- The wording of a fault. -/
def ConfigFault.message : ConfigFault → String
  | iterationRange n =>
    s!"Invalid range for field 'max_iterations': {n} not in 1..={Config.iterationLimit}. " ++
      "At least one detection pass is required"
  | missingVersion =>
    "Missing 'version' field in configuration file. " ++
      "Add 'version: 1' to the top of your YAML file."
  | unsupportedVersion n => s!"Unsupported configuration version {n}. Supported versions: 1"
  | unknownPreset t => s!"Unknown preset '{t}'. Valid presets: detect, repair, custom"
  | unknownValue field value valid =>
    s!"Unknown value '{value}' for '{field}'. Valid values: " ++ ", ".intercalate valid
  | conflict c => "Configuration conflict: " ++ c.issue ++ ". Fix: " ++ c.fix

/-- The mode that a text spells, in any case. -/
def Mode.ofText (text : String) : Except ConfigFault Mode :=
  match Text.findNamed? name all text with
  | some m => .ok m
  | none => .error (.unknownValue "mode" text (all.map name))

/-- The strategy that a text spells, in any case. -/
def Strategy.ofText (text : String) : Except ConfigFault Strategy :=
  match Text.findNamed? name all text with
  | some s => .ok s
  | none => .error (.unknownValue "reachability" text (all.map name))

/-- The preset that a text spells, in any case. -/
def Preset.ofText (text : String) : Except ConfigFault Preset :=
  match Text.findNamed? name all text with
  | some p => .ok p
  | none => .error (.unknownPreset text)

namespace Config

/-- The configuration of a preset. -/
def ofPreset : Preset → Config
  | .detect | .custom => {}
  | .repair => { repair := true, reorderLocksets := true }

/-- Sections of one group are ordered against each other only where nothing is repaired. -/
def effectiveAllowSelfEdges (c : Config) : Bool := c.allowSelfEdges && !c.repair

/-- Checks that the settings go together. The first fault in this order counts. -/
def validate (c : Config) : Except ConfigFault Unit :=
  if c.maxIterations = 0 ∨ iterationLimit < c.maxIterations then
    .error (.iterationRange c.maxIterations)
  else if c.allowSelfEdges && c.repair then .error (.conflict .selfEdgesWithRepair)
  else if c.reorderLocksets && c.mode = .group then .error (.conflict .reorderInGroupMode)
  else if c.excludedPrefixes.contains "" then .error (.conflict .emptyPrefix)
  else .ok ()

end Config

end Interlock
