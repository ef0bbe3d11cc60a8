import Interlock.Json.Reader
import Interlock.Text.Debug
/-!
# Decoding JSON

A decoder makes a value of the draft of a text. Every decoder goes from left to right and stops at
the first problem. Records are written as objects, or as arrays of their fields in order;
enumerations are written as strings, or as objects with one member.
-/

namespace Interlock.Json

/-- How the shape of a well-formed text is wrong. -/
inductive Misfit where
  | missingField (field : String)
  | duplicateField (field : String)
  | unknownField (field : String) (expected : List String)
  | unknownVariant (variant : String) (expected : List String)
  /-- A value of another type. Both are given by their names. -/
  | invalidType (found expected : String)
  /-- A whole number out of range. -/
  | invalidValue (value : Int) (expected : String)
  /-- An array of the wrong length. -/
  | invalidLength (length : Nat) (expected : String)
deriving DecidableEq, Repr

/-- Why a text cannot be decoded. -/
inductive DecodeFault where
  | text (halt : Halt)
  | data (misfit : Misfit)
  /-- Where a name of some value belongs, or an object with one member, there is another value. In a
  text this is no place where a value could start. -/
  | nameless (misfit : Misfit)
deriving DecidableEq, Repr

/-- A name as it is shown in a message. -/
def ticked (s : String) : String := "`" ++ s ++ "`"

/-- The names that were expected. -/
def oneOf : List String → String
  | [] => "there are no names"
  | [a] => ticked a
  | [a, b] => ticked a ++ " or " ++ ticked b
  | names => "one of " ++ ", ".intercalate (names.map ticked)

/-- The wording of a misfit. -/
def Misfit.message : Misfit → String
  | missingField f => "missing field " ++ ticked f
  | duplicateField f => "duplicate field " ++ ticked f
  | unknownField f e => "unknown field " ++ ticked f ++ ", expected " ++ oneOf e
  | unknownVariant v e => "unknown variant " ++ ticked v ++ ", expected " ++ oneOf e
  | invalidType f e => "invalid type: " ++ f ++ ", expected " ++ e
  | invalidValue n e => s!"invalid value: integer `{n}`, expected " ++ e
  | invalidLength n e => s!"invalid length {n}, expected " ++ e

/-- A decoder of drafts. -/
abbrev Decoder (α : Type) := Draft → Except DecodeFault α

namespace Decode

/-- The text of a draft stops being JSON. -/
def halt {α : Type} (h : Halt) : Except DecodeFault α := .error (.text h)

/-- The shape of a draft is wrong. -/
def misfit {α : Type} (m : Misfit) : Except DecodeFault α := .error (.data m)

/-- The draft goes no further than this. -/
def checkStop : Option Halt → Except DecodeFault Unit
  | none => .ok ()
  | some h => halt h

/-- Refuses a draft as a value of another type. -/
def mismatch {α : Type} (expected : String) (d : Draft) : Except DecodeFault α :=
  match d with
  | .null => misfit (.invalidType "null" expected)
  | .bool b => misfit (.invalidType ("boolean " ++ ticked (toString b)) expected)
  | .number n =>
    match n.number? with
    | some v => misfit (.invalidType v.text expected)
    | none => halt .malformed
  | .text s => misfit (.invalidType ("string " ++ Text.debug s) expected)
  | .flawed => halt .malformed
  | .array .. => misfit (.invalidType "sequence" expected)
  | .object .. => misfit (.invalidType "map" expected)
  | .garbled h => halt h
  | .broken h _ => halt h

/-- A string. -/
def string : Decoder String
  | .text s => .ok s
  | d => mismatch "a string" d

/-- A truth value. -/
def bool : Decoder Bool
  | .bool b => .ok b
  | d => mismatch "a boolean" d

/-- A whole number in a range that is given by its ends and its name. -/
def wholeIn (low high : Int) (expected : String) : Decoder Int
  | .number n =>
    match n.number? with
    | some (.whole v) =>
      if low ≤ v ∧ v ≤ high then .ok v else misfit (.invalidValue v expected)
    | _ => mismatch expected (.number n)
  | d => mismatch expected d

/-- A natural number of 64 bits. -/
def size (d : Draft) : Except DecodeFault Nat :=
  (wholeIn 0 (Nat.pow 2 64 - 1 : Nat) "usize" d).map Int.toNat

/-- A whole number of 32 bits. -/
def int32 : Decoder Int := wholeIn (-(Nat.pow 2 31 : Nat)) (Nat.pow 2 31 - 1 : Nat) "i32"

/-- A value that may be null. -/
def optional {α : Type} (decode : Decoder α) : Decoder (Option α)
  | .null => .ok none
  | d => (decode d).map some

/-- The items of an array in order, and then its end. -/
def items {α : Type} (decode : Decoder α) : List Draft → Option Halt → Except DecodeFault (List α)
  | [], stop => (checkStop stop).map fun _ => []
  | d :: rest, stop => do
    let a ← decode d
    let as ← items decode rest stop
    return a :: as

/-- An array of any length. -/
def list {α : Type} (decode : Decoder α) : Decoder (List α)
  | .array ds stop => items decode ds stop
  | d => mismatch "a sequence" d

/-- A value that is passed over. -/
def ignored (d : Draft) : Except DecodeFault Unit := checkStop d.skip

/-! ## Enumerations -/

/-- The value with a name. -/
def named {α : Type} (values : List (String × α)) (name : String) : Except DecodeFault α :=
  match values.lookup name with
  | some a => .ok a
  | none => misfit (.unknownVariant name (values.map (·.1)))

/-- The name of a value in the place of a key. -/
def identifier : Decoder String
  | .text s => .ok s
  | d => mismatch "variant identifier" d

/-- The null that stands for a value without fields. -/
def unit : Decoder Unit
  | .null => .ok ()
  | d => mismatch "unit" d

/-- Refuses a value that names nothing. -/
def nameless {α : Type} (found : String) : Except DecodeFault α :=
  .error (.nameless (.invalidType found "string or map"))

/-- One of the named values: its name, or an object with null under its name. -/
def variant {α : Type} (values : List (String × α)) : Decoder α
  | .text s => named values s
  | .object ((key, d) :: rest) stop => do
    let a ← named values (← identifier key)
    unit d
    match rest with
    | [] => checkStop stop
    | _ :: _ => halt .malformed
    return a
  | .object [] (some h) => halt h
  | .null => nameless "null"
  | .bool b => nameless ("boolean " ++ ticked (toString b))
  | .array .. => nameless "sequence"
  | .number n =>
    match n.number? with
    | some v => nameless v.text
    | none => halt .malformed
  | .flawed | .object [] none | .garbled _ => halt .malformed
  | .broken h _ => halt h

/-! ## Records -/

/-- How a record is written. `R` is the record as far as its fields have been met. -/
structure Record (R : Type) where
  /-- The name of the type, as messages give it. -/
  name : String
  /-- The fields in order, and whether an array may end before them. -/
  fields : List (String × Bool)
  /-- Other fields are refused, and not passed over. -/
  closed : Bool
  /-- Decodes a field into the record. -/
  put : R → String → Draft → Except DecodeFault R

namespace Record

variable {R : Type}

/-- The names of the fields. -/
def names (r : Record R) : List String := r.fields.map (·.1)

/-- The members of an object in order, and then its end. -/
def members (r : Record R) : List (Draft × Draft) → Option Halt → (seen : List String) → R →
    Except DecodeFault R
  | [], stop, _, record => (checkStop stop).map fun _ => record
  | (key, d) :: rest, stop, seen, record =>
    match key with
    | .text name =>
      if r.names.contains name then
        if seen.contains name then misfit (.duplicateField name)
        else do r.members rest stop (name :: seen) (← r.put record name d)
      else if r.closed then misfit (.unknownField name r.names)
      else do
        ignored d
        r.members rest stop seen record
    | .broken h _ => halt h
    | _ => halt .malformed

/-- How messages give the length of the record's arrays. -/
def lengthText (r : Record R) : String :=
  let n := r.fields.length
  r.name ++ s!" with {n} element" ++ if n = 1 then "" else "s"

/-- The items of an array in the order of the fields, and then its end. -/
def inOrder (r : Record R) : List (String × Bool) → List Draft → Option Halt → (count : Nat) → R →
    Except DecodeFault R
  | [], [], stop, _, record => (checkStop stop).map fun _ => record
  | [], _ :: _, _, _, _ => halt .malformed
  | (name, _) :: fields, d :: rest, stop, count, record => do
    r.inOrder fields rest stop (count + 1) (← r.put record name d)
  | (_, _) :: _, [], some h, _, _ => halt h
  | (_, mayEnd) :: fields, [], none, count, record =>
    if mayEnd then r.inOrder fields [] none (count + 1) record
    else misfit (.invalidLength count r.lengthText)

/-- A record, from the empty one. -/
def decode (r : Record R) (empty : R) : Decoder R
  | .object ms stop => r.members ms stop [] empty
  | .array ds stop => r.inOrder r.fields ds stop 0 empty
  | d => mismatch r.name d

end Record

/-- A field that must have been met. -/
def required {α : Type} (name : String) : Option α → Except DecodeFault α
  | some a => .ok a
  | none => misfit (.missingField name)

/-- Decodes a whole text. -/
def document {α : Type} (decode : Decoder α) (s : String) : Except DecodeFault α := do
  let doc := Document.ofText s
  let a ← decode doc.value
  checkStop doc.trailing
  return a

end Decode

end Interlock.Json
