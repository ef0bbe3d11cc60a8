import Interlock.Config.Patch
import Interlock.Json.Decode
import Interlock.Json.Value
/-!
# Configurations as JSON

A configuration is read from an object in which any field may be missing. A patch is read likewise,
but other fields are refused, and a field may be null to be left alone.
-/

namespace Interlock

open Json

namespace Mode

/-- The modes by name. -/
def byName : List (String × Mode) := all.map fun m => (m.name, m)

/-- Reads a mode. -/
def decode : Decoder Mode := Decode.variant byName

end Mode

namespace Strategy

/-- The strategies by name. -/
def byName : List (String × Strategy) := all.map fun s => (s.name, s)

/-- Reads a strategy. -/
def decode : Decoder Strategy := Decode.variant byName

end Strategy

/-- The fields of a configuration in order. -/
def Config.fieldNames : List String :=
  ["mode", "repair", "allow_self_edges", "print_debug", "max_iterations", "reachability",
    "reorder_locksets", "excluded_method_prefixes"]

namespace Config

/-- How a configuration is written. -/
def record : Decode.Record Config where
  name := "struct LockOrderConfig"
  fields := fieldNames.map (·, true)
  closed := false
  put c
    | "mode", d => do return { c with mode := ← Mode.decode d }
    | "repair", d => do return { c with repair := ← Decode.bool d }
    | "allow_self_edges", d => do return { c with allowSelfEdges := ← Decode.bool d }
    | "print_debug", d => do return { c with printDebug := ← Decode.bool d }
    | "max_iterations", d => do return { c with maxIterations := ← Decode.size d }
    | "reachability", d => do return { c with reachability := ← Strategy.decode d }
    | "reorder_locksets", d => do return { c with reorderLocksets := ← Decode.bool d }
    | _, d => do return { c with excludedPrefixes := ← Decode.list Decode.string d }

/-- Reads a configuration; fields that are missing keep their defaults. -/
def decode : Decoder Config := record.decode {}

/-- Reads the text of a configuration. -/
def ofText (s : String) : Except DecodeFault Config := Decode.document decode s

/-- A configuration as a value. -/
def toJson (c : Config) : Value :=
  .object [("mode", .text c.mode.name), ("repair", .bool c.repair),
    ("allow_self_edges", .bool c.allowSelfEdges), ("print_debug", .bool c.printDebug),
    ("max_iterations", .whole c.maxIterations), ("reachability", .text c.reachability.name),
    ("reorder_locksets", .bool c.reorderLocksets),
    ("excluded_method_prefixes", .texts c.excludedPrefixes)]

end Config

namespace Patch

/-- How a patch is written. -/
def record : Decode.Record Patch where
  name := "struct LockOrderConfigPatch"
  fields := Config.fieldNames.map (·, false)
  closed := true
  put p
    | "mode", d => do return { p with mode := ← Decode.optional Mode.decode d }
    | "repair", d => do return { p with repair := ← Decode.optional Decode.bool d }
    | "allow_self_edges", d => do
      return { p with allowSelfEdges := ← Decode.optional Decode.bool d }
    | "print_debug", d => do return { p with printDebug := ← Decode.optional Decode.bool d }
    | "max_iterations", d => do return { p with maxIterations := ← Decode.optional Decode.size d }
    | "reachability", d => do
      return { p with reachability := ← Decode.optional Strategy.decode d }
    | "reorder_locksets", d => do
      return { p with reorderLocksets := ← Decode.optional Decode.bool d }
    | _, d => do
      return { p with
        excludedPrefixes := ← Decode.optional (Decode.list Decode.string) d }

/-- Reads a patch. -/
def decode : Decoder Patch := record.decode {}

/-- Reads the text of a patch. -/
def ofText (s : String) : Except DecodeFault Patch := Decode.document decode s

/-- A patch as a value, with the fields that are set. -/
def toJson (p : Patch) : Value :=
  .object (Value.member? "mode" (p.mode.map fun m => .text m.name) ++
    Value.member? "repair" (p.repair.map .bool) ++
    Value.member? "allow_self_edges" (p.allowSelfEdges.map .bool) ++
    Value.member? "print_debug" (p.printDebug.map .bool) ++
    Value.member? "max_iterations" (p.maxIterations.map fun n => .whole n) ++
    Value.member? "reachability" (p.reachability.map fun s => .text s.name) ++
    Value.member? "reorder_locksets" (p.reorderLocksets.map .bool) ++
    Value.member? "excluded_method_prefixes" (p.excludedPrefixes.map .texts))

end Patch

end Interlock
