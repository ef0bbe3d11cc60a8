import Interlock.Json.Decode
import Interlock.Json.Value
import Interlock.Program.Model
/-!
# Program models as JSON

A program model is written as an object with all fields in order, except those without a value, and
is read from any object with the required fields. Fields with other names are refused.
-/

namespace Interlock

open Json

namespace CallKind

/-- The kinds by name. -/
def byName : List (String × CallKind) := all.map fun k => (k.name, k)

/-- Reads a kind. -/
def decode : Decoder CallKind := Decode.variant byName

end CallKind

namespace LockKind

/-- The kinds by name. -/
def byName : List (String × LockKind) := all.map fun k => (k.name, k)

/-- Reads a kind. -/
def decode : Decoder LockKind := Decode.variant byName

end LockKind

namespace CallSpec

/-- A call site as a value. -/
def toJson (c : CallSpec) : Value :=
  .object (Value.member? "label" (c.label.map .text) ++
    [("targets", .texts c.targets), ("kind", .text c.kind.name)])

/-- A call site as far as its fields have been met. -/
structure Open where
  label : Option String := none
  targets : Option (List String) := none
  kind : CallKind := .direct

/-- How a call site is written. -/
def record : Decode.Record Open where
  name := "struct CallSpec"
  fields := [("label", true), ("targets", false), ("kind", true)]
  closed := true
  put r
    | "label", d => do return { r with label := ← Decode.optional Decode.string d }
    | "targets", d => do return { r with targets := some (← Decode.list Decode.string d) }
    | _, d => do return { r with kind := ← CallKind.decode d }

/-- Reads a call site. -/
def decode (d : Draft) : Except DecodeFault CallSpec := do
  let r ← record.decode {} d
  return { label := r.label, targets := ← Decode.required "targets" r.targets, kind := r.kind }

end CallSpec

namespace MethodSpec

/-- A method as a value. -/
def toJson (m : MethodSpec) : Value :=
  .object (("name", .text m.name) ::
    Value.member? "declaring_class" (m.declaringClass.map .text) ++
    [("calls", .array (m.calls.map CallSpec.toJson))])

/-- A method as far as its fields have been met. -/
structure Open where
  name : Option String := none
  declaringClass : Option String := none
  calls : List CallSpec := []

/-- How a method is written. -/
def record : Decode.Record Open where
  name := "struct MethodSpec"
  fields := [("name", false), ("declaring_class", true), ("calls", true)]
  closed := true
  put r
    | "name", d => do return { r with name := some (← Decode.string d) }
    | "declaring_class", d => do
      return { r with declaringClass := ← Decode.optional Decode.string d }
    | _, d => do return { r with calls := ← Decode.list CallSpec.decode d }

/-- Reads a method. -/
def decode (d : Draft) : Except DecodeFault MethodSpec := do
  let r ← record.decode {} d
  return { name := ← Decode.required "name" r.name
           declaringClass := r.declaringClass, calls := r.calls }

end MethodSpec

namespace LockSpec

/-- A lock as a value. -/
def toJson (l : LockSpec) : Value :=
  .object [("name", .text l.name), ("kind", .text l.kind.name),
    ("points_to", .texts l.pointsTo), ("aliases", .texts l.aliases)]

/-- A lock as far as its fields have been met. -/
structure Open where
  name : Option String := none
  kind : Option LockKind := none
  pointsTo : List String := []
  aliases : List String := []

/-- How a lock is written. -/
def record : Decode.Record Open where
  name := "struct LockSpec"
  fields := [("name", false), ("kind", false), ("points_to", true), ("aliases", true)]
  closed := true
  put r
    | "name", d => do return { r with name := some (← Decode.string d) }
    | "kind", d => do return { r with kind := some (← LockKind.decode d) }
    | "points_to", d => do return { r with pointsTo := ← Decode.list Decode.string d }
    | _, d => do return { r with aliases := ← Decode.list Decode.string d }

/-- Reads a lock. -/
def decode (d : Draft) : Except DecodeFault LockSpec := do
  let r ← record.decode {} d
  return { name := ← Decode.required "name" r.name, kind := ← Decode.required "kind" r.kind
           pointsTo := r.pointsTo, aliases := r.aliases }

end LockSpec

namespace SectionSpec

/-- A critical section as a value. -/
def toJson (s : SectionSpec) : Value :=
  .object ([("name", .text s.name), ("method", .text s.method)] ++
    Value.member? "invokes" (s.invokes.map .texts) ++
    [("lockset", .texts s.lockset)] ++
    Value.member? "group" (s.group.map fun (g : Nat) => .whole g))

/-- A critical section as far as its fields have been met. -/
structure Open where
  name : Option String := none
  method : Option String := none
  invokes : Option (List String) := none
  lockset : Option (List String) := none
  group : Option Nat := none

/-- How a critical section is written. -/
def record : Decode.Record Open where
  name := "struct CriticalSectionSpec"
  fields := [("name", false), ("method", false), ("invokes", true), ("lockset", false),
    ("group", true)]
  closed := true
  put r
    | "name", d => do return { r with name := some (← Decode.string d) }
    | "method", d => do return { r with method := some (← Decode.string d) }
    | "invokes", d => do
      return { r with invokes := ← Decode.optional (Decode.list Decode.string) d }
    | "lockset", d => do return { r with lockset := some (← Decode.list Decode.string d) }
    | _, d => do return { r with group := ← Decode.optional Decode.size d }

/-- Reads a critical section. -/
def decode (d : Draft) : Except DecodeFault SectionSpec := do
  let r ← record.decode {} d
  return { name := ← Decode.required "name" r.name
           method := ← Decode.required "method" r.method
           invokes := r.invokes
           lockset := ← Decode.required "lockset" r.lockset
           group := r.group }

end SectionSpec

namespace Model

/-- A program model as a value. -/
def toJson (m : Model) : Value :=
  .object [("methods", .array (m.methods.map MethodSpec.toJson)),
    ("locks", .array (m.locks.map LockSpec.toJson)),
    ("groups", .whole m.groups),
    ("critical_sections", .array (m.criticalSections.map SectionSpec.toJson))]

/-- How a program model is written. -/
def record : Decode.Record Model where
  name := "struct ProgramModel"
  fields := [("methods", true), ("locks", true), ("groups", true), ("critical_sections", true)]
  closed := true
  put m
    | "methods", d => do return { m with methods := ← Decode.list MethodSpec.decode d }
    | "locks", d => do return { m with locks := ← Decode.list LockSpec.decode d }
    | "groups", d => do return { m with groups := ← Decode.size d }
    | _, d => do return { m with criticalSections := ← Decode.list SectionSpec.decode d }

/-- Reads a program model. -/
def decode : Decoder Model := record.decode {}

/-- The text of a program model. -/
def toText (m : Model) : String := m.toJson.render

/-- Reads the text of a program model. -/
def ofText (s : String) : Except DecodeFault Model := Decode.document decode s

end Model

end Interlock
