import Interlock.Config.Json
import Interlock.Report
/-!
# Reports as JSON

A report is written as an object. The kind of a conflict, and the outcome of a search, are told
apart by a member of the object itself. Such an object is first read to its end and then decoded by
its kind, so a problem anywhere in its text comes before a problem of its shape.
-/

namespace Interlock

open Json

namespace NamedConflict

/-- The members of a conflict that hang on its kind. -/
def kindMembers : ConflictKind → List (String × Value)
  | .group g h =>
    [("kind", .text "group"), ("outer_group", .whole g), ("inner_group", .whole h)]
  | .lock held requested avoidance =>
    [("kind", .text "lock"), ("held", .whole held), ("requested", .whole requested)] ++
      Value.member? "avoidance_lock" (avoidance.map .whole)

/-- A conflict as a value. -/
def toJson (c : NamedConflict) : Value :=
  .object ([("outer", .text c.outer), ("inner", .text c.inner)] ++ kindMembers c.kind)

end NamedConflict

namespace Status

/-- An outcome as a value. -/
def toJson {C : Type} (conflict : C → Value) : Status C → Value
  | acyclic => .object [("status", .text "acyclic")]
  | deadlockReported c =>
    .object [("status", .text "deadlock_reported"), ("conflict", conflict c)]
  | repaired n => .object [("status", .text "repaired"), ("repairs", .whole n)]
  | didNotConverge n c =>
    .object [("status", .text "did_not_converge"), ("iterations", .whole n),
      ("last_conflict", (c.map conflict).getD .null)]

end Status

/-- An arc as a value. -/
def NamedArc.toJson (e : NamedArc) : Value :=
  .object ([("from", .text e.first), ("to", .text e.after)] ++
    if e.labels.isEmpty then [] else [("labels", .texts e.labels)])

/-- An avoidance lock as a value. -/
def HeldLock.toJson (l : HeldLock) : Value :=
  .object [("lock", .whole l.lock), ("name", .text l.name), ("holders", .texts l.holders)]

/-- The locks of a section as a value. -/
def SectionLocks.toJson (l : SectionLocks) : Value :=
  .object (("section", .text l.region) ::
    Value.member? "group" (l.group.map fun (g : Nat) => .whole g) ++
    [("locks", .wholes l.locks)])

/-- A report as a value. -/
def Report.toJson (r : Report) : Value :=
  .object [("mode", .text r.mode.name),
    ("status", r.status.toJson NamedConflict.toJson),
    ("iterations", .whole r.iterations),
    ("repairs", .array (r.repairs.map NamedConflict.toJson)),
    ("edges", .array (r.edges.map NamedArc.toJson)),
    ("avoidance_locks", .array (r.avoidanceLocks.map HeldLock.toJson)),
    ("reordered_sections", .whole r.reorderedSections),
    ("locksets", .array (r.locksets.map SectionLocks.toJson))]

/-- The text of a report. -/
def Report.toText (r : Report) : String := r.toJson.render

namespace Tagged

/-- Objects may be nested as deep as this. -/
def depthLimit : Nat := 127

/-- A value that was read to its end can be kept for later. -/
def checkKept (depth : Nat) (d : Draft) : Except DecodeFault Unit :=
  Decode.checkStop (d.keep depth)

/-- The name in the place of a key that has been read. -/
def keyName : Draft → Except DecodeFault String
  | .text name => .ok name
  | .broken h _ => Decode.halt h
  | _ => Decode.halt .malformed

end Tagged

namespace NamedConflict

/-- The fields of a conflict between groups, as far as they have been met. -/
structure OpenGroups where
  outerGroup : Option Nat := none
  innerGroup : Option Nat := none

/-- How the fields of a conflict between groups are written. -/
def groupRecord : Decode.Record OpenGroups where
  name := "struct variant ConflictKind::Group"
  fields := [("outer_group", false), ("inner_group", false)]
  closed := false
  put r
    | "outer_group", d => do return { r with outerGroup := some (← Decode.size d) }
    | _, d => do return { r with innerGroup := some (← Decode.size d) }

/-- The fields of a conflict on locks, as far as they have been met. -/
structure OpenLocks where
  held : Option Int := none
  requested : Option Int := none
  avoidanceLock : Option Int := none

/-- How the fields of a conflict on locks are written. -/
def lockRecord : Decode.Record OpenLocks where
  name := "struct variant ConflictKind::Lock"
  fields := [("held", false), ("requested", false), ("avoidance_lock", true)]
  closed := false
  put r
    | "held", d => do return { r with held := some (← Decode.int32 d) }
    | "requested", d => do return { r with requested := some (← Decode.int32 d) }
    | _, d => do return { r with avoidanceLock := ← Decode.optional Decode.int32 d }

/-- The kinds of conflicts, by name. -/
inductive Tag where
  | group
  | lock
deriving DecidableEq, Repr

/-- The kinds by name, in order. -/
def tags : List (String × Tag) := [("group", .group), ("lock", .lock)]

/-- Reads a kind that was kept: its name, or its number. -/
def decodeTag : Decoder Tag
  | .text s => Decode.named tags s
  | .number n =>
    match n.number? with
    | some (.whole 0) => .ok .group
    | some (.whole 1) => .ok .lock
    | some (.whole v) =>
      if 0 ≤ v then Decode.misfit (.invalidValue v "variant index 0 <= i < 2")
      else Decode.mismatch "variant identifier" (.number n)
    | _ => Decode.mismatch "variant identifier" (.number n)
  | d => Decode.mismatch "variant identifier" d

/-- Finds the kind among members that were kept, and the others. -/
def splitTag : List (Draft × Draft) → Option Tag →
    Except DecodeFault (Option Tag × List (Draft × Draft))
  | [], tag => .ok (tag, [])
  | (.text "kind", d) :: rest, none => do splitTag rest (some (← decodeTag d))
  | (.text "kind", _) :: _, some _ => Decode.misfit (.duplicateField "kind")
  | member :: rest, tag => do
    let (tag, others) ← splitTag rest tag
    return (tag, member :: others)

/-- Reads the kind of a conflict from members that were kept. -/
def decodeKind (kept : List (Draft × Draft)) : Except DecodeFault ConflictKind := do
  let (tag, others) ← splitTag kept none
  match ← Decode.required "kind" tag with
  | .group => do
    let r ← groupRecord.members others none [] {}
    return .group (← Decode.required "outer_group" r.outerGroup)
      (← Decode.required "inner_group" r.innerGroup)
  | .lock => do
    let r ← lockRecord.members others none [] {}
    return .lock (← Decode.required "held" r.held)
      (← Decode.required "requested" r.requested) r.avoidanceLock

/-- A conflict as far as its members have been met. -/
structure Open where
  outer : Option String := none
  inner : Option String := none
  /-- The other members, latest first. -/
  kept : List (Draft × Draft) := []

/-- The members of a conflict in order, and then its end. Those that hang on its kind are kept. -/
def decodeMembers (depth : Nat) : List (Draft × Draft) → Option Halt → Open →
    Except DecodeFault Open
  | [], stop, r => (Decode.checkStop stop).map fun _ => r
  | (key, d) :: rest, stop, r => do
    match ← Tagged.keyName key with
    | "outer" =>
      if r.outer.isSome then Decode.misfit (.duplicateField "outer")
      else decodeMembers depth rest stop { r with outer := some (← Decode.string d) }
    | "inner" =>
      if r.inner.isSome then Decode.misfit (.duplicateField "inner")
      else decodeMembers depth rest stop { r with inner := some (← Decode.string d) }
    | name =>
      Tagged.checkKept depth d
      decodeMembers depth rest stop { r with kept := (.text name, d) :: r.kept }

/-- Reads a conflict. `depth` bounds how deep its other members may be nested. -/
def decode (depth : Nat) : Decoder NamedConflict
  | .object ms stop => do
    let r ← decodeMembers depth ms stop {}
    let outer ← Decode.required "outer" r.outer
    let inner ← Decode.required "inner" r.inner
    return { outer, inner, kind := ← decodeKind r.kept.reverse }
  | d => Decode.mismatch "struct ConflictReport" d

end NamedConflict

namespace Status

/-- The outcomes, without what comes with them. -/
inductive Tag where
  | acyclic
  | deadlockReported
  | repaired
  | didNotConverge
deriving DecidableEq, Repr

/-- The outcomes by name, in order. -/
def tags : List (String × Tag) :=
  [("acyclic", .acyclic), ("deadlock_reported", .deadlockReported), ("repaired", .repaired),
    ("did_not_converge", .didNotConverge)]

/-- Reads the name of an outcome. -/
def decodeTag (d : Draft) : Except DecodeFault Tag := do
  Decode.named tags (← Decode.identifier d)

/-- The members of an outcome in order, and then its end: its name, and the others, which are
kept. -/
def splitTag (depth : Nat) : List (Draft × Draft) → Option Halt → Option Tag →
    Except DecodeFault (Option Tag × List (Draft × Draft))
  | [], stop, tag => (Decode.checkStop stop).map fun _ => (tag, [])
  | (key, d) :: rest, stop, tag => do
    let name ← Tagged.keyName key
    if name = "status" then
      if tag.isSome then Decode.misfit (.duplicateField "status")
      else splitTag depth rest stop (some (← decodeTag d))
    else
      Tagged.checkKept depth d
      let (tag, others) ← splitTag depth rest stop tag
      return (tag, (key, d) :: others)

/-- The fields of an outcome, as far as they have been met. -/
structure Open (C : Type) where
  conflict : Option C := none
  repairs : Option Nat := none
  iterations : Option Nat := none
  lastConflict : Option C := none

variable {C : Type}

/-- How the fields of a reported deadlock are written. -/
def reportedRecord (conflict : Decoder C) : Decode.Record (Open C) where
  name := "struct variant DetectionStatus::DeadlockReported"
  fields := [("conflict", false)]
  closed := false
  put r _ d := do return { r with conflict := some (← conflict d) }

/-- How the fields of a repair are written. -/
def repairedRecord : Decode.Record (Open C) where
  name := "struct variant DetectionStatus::Repaired"
  fields := [("repairs", false)]
  closed := false
  put r _ d := do return { r with repairs := some (← Decode.size d) }

/-- How the fields of a search without an end are written. -/
def divergedRecord (conflict : Decoder C) : Decode.Record (Open C) where
  name := "struct variant DetectionStatus::DidNotConverge"
  fields := [("iterations", false), ("last_conflict", false)]
  closed := false
  put r
    | "iterations", d => do return { r with iterations := some (← Decode.size d) }
    | _, d => do return { r with lastConflict := ← Decode.optional conflict d }

/-- An outcome without fields leaves nothing in an array. -/
def checkEmpty : Draft → Except DecodeFault Unit
  | .array items _ => checkLength items 0
  | _ => .ok ()
where
  /-- The items after the expected ones are counted as well. -/
  checkLength (items : List Draft) (expected : Nat) : Except DecodeFault Unit :=
    if items.length ≤ expected then .ok ()
    else Decode.misfit (.invalidLength items.length
      (s!"{expected} element" ++ (if expected = 1 then "" else "s") ++ " in sequence"))

/-- Reads the fields of an outcome from what was kept, an object or an array. An array may not hold
more than the fields. -/
def decodeFields (record : Decode.Record (Open C)) (d : Draft) : Except DecodeFault (Open C) :=
  match d with
  | .array items _ => do
    let r ← record.inOrder record.fields (items.take record.fields.length) none 0 {}
    checkEmpty.checkLength items record.fields.length
    return r
  | d => record.decode {} d

/-- Reads what comes with an outcome. -/
def decodeRest (conflict : Decoder C) (tag : Tag) (d : Draft) : Except DecodeFault (Status C) :=
  match tag with
  | .acyclic => do
    checkEmpty d
    return .acyclic
  | .deadlockReported => do
    let r ← decodeFields (reportedRecord conflict) d
    return .deadlockReported (← Decode.required "conflict" r.conflict)
  | .repaired => do
    let r ← decodeFields (repairedRecord (C := C)) d
    return .repaired (← Decode.required "repairs" r.repairs)
  | .didNotConverge => do
    let r ← decodeFields (divergedRecord conflict) d
    return .didNotConverge (← Decode.required "iterations" r.iterations) r.lastConflict

/-- The items of an array that are kept, in order, and then its end. -/
def keepItems (depth : Nat) : List Draft → Option Halt → Except DecodeFault Unit
  | [], stop => Decode.checkStop stop
  | d :: rest, stop => do
    Tagged.checkKept depth d
    keepItems depth rest stop

/-- Reads an outcome: an object with its name under `status`, or an array that starts with its name.
-/
def decode (depth : Nat) (conflict : Decoder C) : Decoder (Status C)
  | .object ms stop => do
    let (tag, others) ← splitTag depth ms stop none
    decodeRest conflict (← Decode.required "status" tag) (.object others none)
  | .array [] stop => do
    Decode.checkStop stop
    Decode.misfit (.missingField "status")
  | .array (d :: rest) stop => do
    let tag ← decodeTag d
    keepItems depth rest stop
    decodeRest conflict tag (.array rest none)
  | d => Decode.mismatch "internally tagged enum DetectionStatus" d

end Status

namespace NamedArc

/-- An arc as far as its fields have been met. -/
structure Open where
  first : Option String := none
  after : Option String := none
  labels : List String := []

/-- How an arc is written. -/
def record : Decode.Record Open where
  name := "struct OrderEdge"
  fields := [("from", false), ("to", false), ("labels", true)]
  closed := false
  put r
    | "from", d => do return { r with first := some (← Decode.string d) }
    | "to", d => do return { r with after := some (← Decode.string d) }
    | _, d => do return { r with labels := ← Decode.list Decode.string d }

/-- Reads an arc. -/
def decode (d : Draft) : Except DecodeFault NamedArc := do
  let r ← record.decode {} d
  return { first := ← Decode.required "from" r.first, after := ← Decode.required "to" r.after
           labels := r.labels }

end NamedArc

namespace HeldLock

/-- An avoidance lock as far as its fields have been met. -/
structure Open where
  lock : Option Int := none
  name : Option String := none
  holders : Option (List String) := none

/-- How an avoidance lock is written. -/
def record : Decode.Record Open where
  name := "struct AvoidanceLockReport"
  fields := [("lock", false), ("name", false), ("holders", false)]
  closed := false
  put r
    | "lock", d => do return { r with lock := some (← Decode.int32 d) }
    | "name", d => do return { r with name := some (← Decode.string d) }
    | _, d => do return { r with holders := some (← Decode.list Decode.string d) }

/-- Reads an avoidance lock. -/
def decode (d : Draft) : Except DecodeFault HeldLock := do
  let r ← record.decode {} d
  return { lock := ← Decode.required "lock" r.lock, name := ← Decode.required "name" r.name
           holders := ← Decode.required "holders" r.holders }

end HeldLock

namespace SectionLocks

/-- The locks of a section as far as their fields have been met. -/
structure Open where
  region : Option String := none
  group : Option Nat := none
  locks : Option (List Int) := none

/-- How the locks of a section are written. -/
def record : Decode.Record Open where
  name := "struct SectionLockset"
  fields := [("section", false), ("group", true), ("locks", false)]
  closed := false
  put r
    | "section", d => do return { r with region := some (← Decode.string d) }
    | "group", d => do return { r with group := ← Decode.optional Decode.size d }
    | _, d => do return { r with locks := some (← Decode.list Decode.int32 d) }

/-- Reads the locks of a section. -/
def decode (d : Draft) : Except DecodeFault SectionLocks := do
  let r ← record.decode {} d
  return { region := ← Decode.required "section" r.region, group := r.group
           locks := ← Decode.required "locks" r.locks }

end SectionLocks

namespace Report

/-- A report as far as its fields have been met. -/
structure Open where
  mode : Option Mode := none
  status : Option (Status NamedConflict) := none
  iterations : Option Nat := none
  repairs : Option (List NamedConflict) := none
  edges : Option (List NamedArc) := none
  avoidanceLocks : List HeldLock := []
  reorderedSections : Nat := 0
  locksets : Option (List SectionLocks) := none

/-- How a report is written. The depth of what is kept is counted from the report on. -/
def record : Decode.Record Open where
  name := "struct LockOrderReport"
  fields := [("mode", false), ("status", false), ("iterations", false), ("repairs", false),
    ("edges", false), ("avoidance_locks", true), ("reordered_sections", true),
    ("locksets", false)]
  closed := false
  put r
    | "mode", d => do return { r with mode := some (← Mode.decode d) }
    | "status", d => do
      let depth := Tagged.depthLimit - 2
      return { r with status := some (← Status.decode depth (NamedConflict.decode depth) d) }
    | "iterations", d => do return { r with iterations := some (← Decode.size d) }
    | "repairs", d => do
      let depth := Tagged.depthLimit - 3
      return { r with repairs := some (← Decode.list (NamedConflict.decode depth) d) }
    | "edges", d => do return { r with edges := some (← Decode.list NamedArc.decode d) }
    | "avoidance_locks", d => do
      return { r with avoidanceLocks := ← Decode.list HeldLock.decode d }
    | "reordered_sections", d => do return { r with reorderedSections := ← Decode.size d }
    | _, d => do return { r with locksets := some (← Decode.list SectionLocks.decode d) }

/-- Reads a report. -/
def decode (d : Draft) : Except DecodeFault Report := do
  let r ← record.decode {} d
  return { mode := ← Decode.required "mode" r.mode
           status := ← Decode.required "status" r.status
           iterations := ← Decode.required "iterations" r.iterations
           repairs := ← Decode.required "repairs" r.repairs
           edges := ← Decode.required "edges" r.edges
           avoidanceLocks := r.avoidanceLocks
           reorderedSections := r.reorderedSections
           locksets := ← Decode.required "locksets" r.locksets }

/-- Reads the text of a report. -/
def ofText (s : String) : Except DecodeFault Report := Decode.document decode s

end Report

end Interlock
