import Interlock.Config.Json
import Interlock.Document
/-!
# Configuration files

A configuration file is a document. It names a version of the format, a preset, and what is set
otherwise than in the preset. `Config.load` reads a file and `Config.save` writes one, with a
library for documents.
-/

namespace Interlock

open Document

/-- Why a configuration file is refused. -/
inductive ConfigFileFault where
  /-- The library has no answer: the text is no document, or it has another shape than a
  configuration. -/
  | malformed
  | refused (fault : ConfigFault)
deriving DecidableEq, Repr

/-- What a configuration file says. -/
structure ConfigFile where
  version : Option Nat
  preset : String
  overrides : Option Patch
deriving DecidableEq, Repr, Inhabited

namespace Patch

/-- The fields that a patch sets, as they are written. -/
def fields (p : Patch) : List (String × Value) :=
  field? "mode" (p.mode.map fun m => .variant m.name) ++
  (field? "repair" (p.repair.map .truth) ++
  (field? "allow_self_edges" (p.allowSelfEdges.map .truth) ++
  (field? "print_debug" (p.printDebug.map .truth) ++
  (field? "max_iterations" (p.maxIterations.map .number) ++
  (field? "reachability" (p.reachability.map fun s => .variant s.name) ++
  (field? "reorder_locksets" (p.reorderLocksets.map .truth) ++
  field? "excluded_method_prefixes" (p.excludedPrefixes.map .texts)))))))

variable (lib : Library)

/-- Sets the field of a name. -/
def put? (p : Patch) (name : String) (n : lib.Node) : Option Patch :=
  match name with
  | "mode" => (lib.optional? (lib.oneOf? Mode.byName) n).map fun v => { p with mode := v }
  | "repair" => (lib.optional? lib.truth? n).map fun v => { p with repair := v }
  | "allow_self_edges" => (lib.optional? lib.truth? n).map fun v => { p with allowSelfEdges := v }
  | "print_debug" => (lib.optional? lib.truth? n).map fun v => { p with printDebug := v }
  | "max_iterations" =>
    (lib.optional? (lib.number? (Nat.pow 2 64)) n).map fun v => { p with maxIterations := v }
  | "reachability" =>
    (lib.optional? (lib.oneOf? Strategy.byName) n).map fun v => { p with reachability := v }
  | "reorder_locksets" => (lib.optional? lib.truth? n).map fun v => { p with reorderLocksets := v }
  | "excluded_method_prefixes" =>
    (lib.optional? lib.texts? n).map fun v => { p with excludedPrefixes := v }
  | _ => none

/-- The patch that a mapping stands for. -/
def ofNode? (n : lib.Node) : Option Patch := lib.record? (put? lib) {} n

end Patch

namespace ConfigFile

/-- The version of the format. -/
def currentVersion : Nat := 1

/-- The fields of a file, as they are written. -/
def fields (f : ConfigFile) : List (String × Value) :=
  ("version", f.version.elim .null .number) :: ("preset", .text f.preset) ::
    field? "overrides" (f.overrides.map fun p => .record p.fields)

/-- What has been read of a file. -/
structure Open where
  version : Option Nat := none
  preset : Option String := none
  overrides : Option Patch := none

variable (lib : Library)

/-- Sets the field of a name. -/
def Open.put? (f : Open) (name : String) (n : lib.Node) : Option Open :=
  match name with
  | "version" =>
    (lib.optional? (lib.number? (Nat.pow 2 32)) n).map fun v => { f with version := v }
  | "preset" => (lib.text? n).map fun v => { f with preset := some v }
  | "overrides" =>
    (lib.optional? (Patch.ofNode? lib) n).map fun v => { f with overrides := v }
  | _ => none

/-- The file that a mapping stands for. Its preset has to be there. -/
def ofNode? (n : lib.Node) : Option ConfigFile := do
  let f ← lib.record? (Open.put? lib) {} n
  return { version := f.version, preset := ← f.preset, overrides := f.overrides }

/-- The file that a text is. -/
def ofText? (text : String) : Option ConfigFile := do ofNode? lib (← lib.read? text)

/-- The configuration that a file says, without a check of its settings. -/
def config (f : ConfigFile) : Except ConfigFault Config :=
  match f.version with
  | none => .error .missingVersion
  | some version =>
    if version ≠ currentVersion then .error (.unsupportedVersion version)
    else match Preset.ofText f.preset with
      | .error e => .error e
      | .ok p => .ok ((Config.ofPreset p).apply (f.overrides.getD {}))

end ConfigFile

namespace Config

/-- The file that says a configuration: a preset, and what is set otherwise. -/
def file (c : Config) (p : Preset) : ConfigFile :=
  let patch := c.diff (ofPreset p)
  { version := some ConfigFile.currentVersion
    preset := p.name
    overrides := if patch = {} then none else some patch }

variable (lib : Library)

/-- Reads a configuration file and checks its settings. -/
def load (text : String) : Except ConfigFileFault Config :=
  match ConfigFile.ofText? lib text with
  | none => .error .malformed
  | some f => do
    let c ← f.config.mapError .refused
    c.validate.mapError .refused
    return c

/-- Writes the file of a configuration relative to a preset. -/
def save (c : Config) (p : Preset) : Except ConfigFileFault String :=
  match lib.write? (c.file p).fields with
  | none => .error .malformed
  | some text => .ok text

end Config

end Interlock
