import Interlock.Yaml.Resolution
/-!
# Options of the command line

An option has a long name and often a letter. Its value follows as the next argument, after an
equals sign, or right after the letter. Switches have no value. Every option may be given once, and
nothing may be given that is no option.
-/

namespace Interlock

/-- How a report is printed. -/
inductive Format where
  | text
  | json
deriving DecidableEq, Repr, Inhabited

/-- What a user asks for. -/
structure Options where
  /-- The file with the program. -/
  input : String
  /-- The configuration file, which counts more than the preset. -/
  config : Option String := none
  preset : String := "detect"
  mode : Option String := none
  repair : Bool := false
  maxIterations : Option Nat := none
  debug : Bool := false
  format : Format := .text
deriving DecidableEq, Repr, Inhabited

namespace Options

/-- An option with a value. -/
inductive Valued where
  | input
  | config
  | preset
  | mode
  | maxIterations
  | format
deriving DecidableEq, Repr

/-- An option without a value. -/
inductive Switch where
  | repair
  | debug
deriving DecidableEq, Repr

/-- An option. -/
inductive Name where
  | valued (v : Valued)
  | switch (s : Switch)
deriving DecidableEq, Repr

/-- The options by their long names. -/
def longNames : List (String × Name) :=
  [("input", .valued .input), ("config", .valued .config), ("preset", .valued .preset),
    ("mode", .valued .mode), ("repair", .switch .repair),
    ("max-iterations", .valued .maxIterations), ("debug", .switch .debug),
    ("format", .valued .format)]

/-- The options that have a letter. -/
def letters : List (Char × Valued) :=
  [('i', .input), ('c', .config), ('p', .preset), ('f', .format)]

/-- What has been given so far. -/
structure Given where
  values : List (Valued × String) := []
  switches : List Switch := []
deriving Repr, Inhabited

namespace Given

/-- One more value, if it is the first of its option. -/
def value? (g : Given) (v : Valued) (text : String) : Option Given :=
  if (g.values.lookup v).isSome then none else some { g with values := (v, text) :: g.values }

/-- One more switch, if it is the first of its kind. -/
def switch? (g : Given) (s : Switch) : Option Given :=
  if s ∈ g.switches then none else some { g with switches := s :: g.switches }

end Given

/-- What an argument looks like. -/
inductive Argument where
  /-- Two hyphens, after which there are no options. -/
  | last
  /-- A long name, and what follows an equals sign. -/
  | long (name : String) (value : Option String)
  /-- A letter after one hyphen, and what follows it. -/
  | short (letter : Char) (value : Option String)
  | word
deriving DecidableEq, Repr

/-- Splits a text at its first equals sign. -/
def splitEquals (cs : List Char) : String × Option String :=
  let name := String.ofList (cs.takeWhile (· ≠ '='))
  match cs.dropWhile (· ≠ '=') with
  | [] => (name, none)
  | _ :: value => (name, some (String.ofList value))

/-- What follows a letter, without an equals sign before it. -/
def attached : List Char → Option String
  | [] => none
  | '=' :: value | value => some (String.ofList value)

/-- What an argument looks like. -/
def Argument.ofText (arg : String) : Argument :=
  match arg.toList with
  | ['-', '-'] => .last
  | '-' :: '-' :: rest => .long (splitEquals rest).1 (splitEquals rest).2
  | '-' :: letter :: rest => .short letter (attached rest)
  | _ => .word

/-- Takes up the arguments one after the other; none if they are misused. -/
def collect? : List String → Given → Option Given
  | [], g => some g
  | arg :: rest, g =>
    let give (v : Valued) : Option String → Option Given
      | some text => do collect? rest (← g.value? v text)
      | none =>
        match rest with
        | text :: rest =>
          if Argument.ofText text = .word then do collect? rest (← g.value? v text) else none
        | [] => none
    match Argument.ofText arg with
    | .last => if rest.isEmpty then some g else none
    | .word => none
    | .short letter value => do give (← letters.lookup letter) value
    | .long name value => do
      match ← longNames.lookup name with
      | .valued v => give v value
      | .switch s => if value.isSome then none else collect? rest (← g.switch? s)

/-- A number of 64 bits: digits, and a plus sign if one wants. -/
def number? (text : String) : Option Nat :=
  let digits := match text.toList with
    | '+' :: rest => rest
    | cs => cs
  (Yaml.Resolution.digits? 10 digits).filter (· < Nat.pow 2 64)

/-- The format of a name. -/
def format? (text : String) : Option Format := [("text", Format.text), ("json", .json)].lookup text

/-- A value that is optional but not empty. -/
def path? : Option String → Option (Option String)
  | some "" => none
  | path => some path

/-- The value of an option, if it is given, and if it can be read. -/
def read? {α : Type} (read : String → Option α) : Option String → Option (Option α)
  | some text => (read text).map some
  | none => some none

/-- The options that arguments give; none if they are misused. -/
def ofArguments? (args : List String) : Option Options := do
  let given ← collect? args {}
  let value (v : Valued) : Option String := given.values.lookup v
  let input ← (← path? (value .input))
  let config ← path? (value .config)
  let maxIterations ← read? number? (value .maxIterations)
  let format ← read? format? (value .format)
  return {
    input, config, maxIterations
    preset := (value .preset).getD "detect"
    mode := value .mode
    repair := .repair ∈ given.switches
    debug := .debug ∈ given.switches
    format := format.getD .text }

end Options

end Interlock
