import Interlock.Analysis
import Interlock.CommandLine.Options
import Interlock.Config.Yaml
import Interlock.Program.Json
import Interlock.Report.Json
/-!
# A run from the command line

A run reads a program from a file, analyses it and prints the report. Files are given as a function
from paths to texts, so a run is a function of the arguments and the files: `CommandLine.run`.
-/

namespace Interlock.CommandLine

/-- The files by path: the text of each, or why it cannot be read. -/
abbrev Files := String → Except String String

/-- Why there is no report. -/
inductive RunFault where
  /-- The program cannot be read. -/
  | file (reason : String)
  | json (fault : Json.DecodeFault)
  /-- The configuration file cannot be read. -/
  | configFile (reason : String)
  | yaml
  | config (fault : ConfigFault)
  | analysis (fault : Fault)
deriving Repr

namespace RunFault

/-- A configuration file that is refused. -/
def ofConfigFile : ConfigFileFault → RunFault
  | .malformed => yaml
  | .refused f => config f

/-- The wording of a problem in the text of a program. -/
def jsonReason : Json.DecodeFault → String
  | .text .malformed | .nameless _ => "malformed text"
  | .text .cut => "unexpected end of text"
  | .data m => m.message

/-- The wording of a fault. -/
def message : RunFault → String
  | file reason => "IO error: " ++ reason
  | json f => "JSON error: " ++ jsonReason f
  | configFile reason => "Configuration error: IO error: " ++ reason
  | yaml => "Configuration error: YAML parsing error: not a configuration"
  | config f => "Configuration error: " ++ f.message
  | analysis f => f.message

end RunFault

/-- How a run ends. -/
inductive Outcome where
  /-- The arguments are no options. -/
  | misused
  | failed (fault : RunFault)
  | reported (report : Report) (format : Format)

namespace Outcome

/-- The exit code: zero where no deadlock is left, one for a fault, and two otherwise. -/
def code : Outcome → Nat
  | misused => 2
  | failed _ => 1
  | reported r _ => if r.isDeadlockFree then 0 else 2

/-- What is printed. -/
def output : Outcome → String
  | reported r .text => r.text
  | reported r .json => r.toText ++ "\n"
  | misused | failed _ => ""

/-- The error that is printed beside. -/
def error? : Outcome → Option String
  | failed f => some ("Error: " ++ f.message)
  | misused | reported .. => none

end Outcome

/-- The configuration to start from: the file, or else the preset. -/
def baseConfig (files : Files) (o : Options) : Except RunFault Config :=
  match o.config with
  | some path => do
    let text ← (files path).mapError .configFile
    (Config.ofYaml text).mapError .ofConfigFile
  | none => do
    let preset ← (Preset.ofText o.preset).mapError .config
    return .ofPreset preset

/-- Sets the mode. There is nothing to reorder in group mode. -/
def setMode (c : Config) (m : Mode) : Config :=
  { c with mode := m, reorderLocksets := c.reorderLocksets && m ≠ .group }

/-- The configuration with what other options set. -/
def override (o : Options) (c : Config) : Except RunFault Config := do
  let c ← match o.mode with
    | some text => ((Mode.ofText text).mapError .config).map (setMode c)
    | none => .ok c
  return { c with
    repair := c.repair || o.repair
    maxIterations := o.maxIterations.getD c.maxIterations
    printDebug := c.printDebug || o.debug }

/-- The configuration of a run. -/
def config (files : Files) (o : Options) : Except RunFault Config := do
  let c ← override o (← baseConfig files o)
  c.validate.mapError .config
  return c

/-- The program of a run. -/
def program (files : Files) (o : Options) : Except RunFault Program := do
  let text ← (files o.input).mapError .file
  let model ← (Model.ofText text).mapError .json
  model.build.mapError .analysis

/-- The report of a run. The configuration is looked at before the program. -/
def report (files : Files) (o : Options) : Except RunFault Report := do
  let c ← config files o
  let p ← program files o
  let (r, _) ← (p.analyze c).2.mapError .analysis
  return r

/-- A run. -/
def run (files : Files) (args : List String) : Outcome :=
  match Options.ofArguments? args with
  | none => .misused
  | some o =>
    match report files o with
    | .ok r => .reported r o.format
    | .error f => .failed f

end Interlock.CommandLine
