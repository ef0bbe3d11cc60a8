import Interlock.Analysis
/-!
# Program models

A program model lists, by name, what an analysis needs to know of a program: methods with their call
sites, locks with their aliases, and critical sections. `Model.build` resolves every name and makes
the arena and the call graph; it fails at the first name that does not resolve.
-/

namespace Interlock

/-- A call site of a method. -/
structure CallSpec where
  /-- The name by which sections refer to the call site. -/
  label : Option String := none
  targets : List String
  kind : CallKind := .direct
deriving DecidableEq, Repr, Inhabited

/-- A method. -/
structure MethodSpec where
  /-- The qualified name. -/
  name : String
  declaringClass : Option String := none
  calls : List CallSpec := []
deriving DecidableEq, Repr, Inhabited

/-- Whether a lock belongs to a class or is an object in the heap. -/
inductive LockKind where
  | static
  | dynamic
deriving DecidableEq, Repr, Inhabited

/-- A lock. -/
structure LockSpec where
  name : String
  kind : LockKind
  /-- The allocation sites of the objects that may be the lock. -/
  pointsTo : List String := []
  /-- Other expressions for the same lock. -/
  aliases : List String := []
deriving DecidableEq, Repr, Inhabited

/-- A critical section. -/
structure SectionSpec where
  name : String
  /-- The method that enters the region. -/
  method : String
  /-- The labels of the call sites in the region; without them, all call sites of `method`. -/
  invokes : Option (List String) := none
  lockset : List String
  /-- The group, by index; without one the section takes no lock. -/
  group : Option Nat := none
deriving DecidableEq, Repr, Inhabited

/-- What is known of a program. -/
structure Model where
  methods : List MethodSpec := []
  locks : List LockSpec := []
  /-- The count of groups. -/
  groups : Nat := 0
  criticalSections : List SectionSpec := []
deriving DecidableEq, Repr, Inhabited

namespace LockKind

/-- The kinds in order of declaration. -/
def all : List LockKind := [static, dynamic]

/-- The spelling of a kind. -/
def name : LockKind → String
  | static => "static"
  | dynamic => "dynamic"

end LockKind

/-- The characters before the last dot; all of them where there is no dot. -/
def beforeLastDot (cs : List Char) : List Char :=
  if cs.contains '.' then ((cs.reverse.dropWhile (· != '.')).drop 1).reverse else cs

/-- The class that declares the method: the given one, or what stands before the last dot of the
name. -/
def MethodSpec.owner (m : MethodSpec) : String :=
  m.declaringClass.getD (String.ofList (beforeLastDot m.name.toList))

namespace Model

/-- The number of the method with a name. -/
def resolveMethod (g : CallGraph) (name : String) : Except Fault MethodId :=
  match g.methodId? name with
  | some id => .ok id
  | none => .error (.model (.unknownMethod name))

/-- Declares the methods. -/
def addMethods (g : CallGraph) : List MethodSpec → Except Fault CallGraph
  | [] => .ok g
  | m :: rest =>
    match g.methodId? m.name with
    | some _ => .error (.model (.methodTwice m.name))
    | none => addMethods (g.addMethod m.name).1 rest

/-- A call graph, and the call sites that have labels, the latest first. -/
structure Calls where
  graph : CallGraph
  labelled : List (String × SiteId) := []

/-- Adds the edges of a call site. -/
def addTargets (site : SiteId) (kind : CallKind) (g : CallGraph) :
    List String → Except Fault CallGraph
  | [] => .ok g
  | target :: rest => do
    let g ← g.addEdge site (← resolveMethod g target) kind
    addTargets site kind g rest

/-- Adds a call site with its edges and its label. -/
def addCall (caller : MethodId) (c : Calls) (call : CallSpec) : Except Fault Calls := do
  let (g, site) ← c.graph.addSite caller
  let graph ← addTargets site call.kind g call.targets
  match call.label with
  | none => return { c with graph }
  | some label =>
    if (c.labelled.lookup label).isSome then throw (.model (.labelTwice label))
    return { graph, labelled := (label, site) :: c.labelled }

/-- Adds the call sites of a method. -/
def addCalls (c : Calls) (m : MethodSpec) : Except Fault Calls := do
  m.calls.foldlM (addCall (← resolveMethod c.graph m.name)) c

/-- Declares a lock with its aliases. -/
def addLock (t : LockTable) (l : LockSpec) : Except Fault LockTable := do
  let key := LockKey.value l.name
  if t.contains key then throw (.model (.lockTwice l.name))
  let (t, n) ← match l.kind with
    | .static =>
      if l.pointsTo.isEmpty then pure (t.registerStatic key)
      else throw (.model (.staticPointsTo l.name))
    | .dynamic => pure (t.registerDynamic key (.ofList l.pointsTo))
  l.aliases.foldlM (fun t name => t.addAlias (.value name) n) t

/-- The call sites in a section's region. -/
def sitesOf (c : Calls) (s : SectionSpec) (method : MethodId) : Except Fault (List SiteId) :=
  match s.invokes with
  | none => .ok (c.graph.sitesIn method)
  | some labels => labels.mapM fun label =>
    match c.labelled.lookup label with
    | some site => .ok site
    | none => .error (.model (.unknownLabel s.name label))

/-- The keys of a section's lockset. -/
def keysOf (t : LockTable) (s : SectionSpec) : Except Fault (List LockKey) :=
  s.lockset.mapM fun name =>
    if t.contains (.value name) then .ok (.value name)
    else .error (.model (.undeclaredLock s.name name))

/-- Adds a critical section. -/
def addSection (m : Model) (c : Calls) (a : Arena) (s : SectionSpec) : Except Fault Arena := do
  let method ← resolveMethod c.graph s.method
  let owner := ((m.methods.find? (·.name == s.method)).map MethodSpec.owner).getD ""
  let sites ← sitesOf c s method
  let lockset ← keysOf a.locks s
  let record : Section :=
    { Section.addInvokes { name := s.name, method, owner } sites with lockset }
  match s.group with
  | none => return (a.addSection record).1
  | some group =>
    if m.groups ≤ group then throw (.model (.undeclaredGroup s.name group m.groups))
    return (a.addSectionTo record group).1

/-- Resolves all names: methods, then calls, then locks, then sections. -/
def build (m : Model) : Except Fault Program := do
  let graph ← addMethods .empty m.methods
  let calls ← m.methods.foldlM addCalls { graph }
  let locks ← m.locks.foldlM addLock .empty
  let groups := (List.range m.groups).map fun (id : Nat) => ({ number := id + 1 } : Group)
  let arena ← m.criticalSections.foldlM (addSection m calls) { groups, locks }
  arena.validate
  return { arena, calls := calls.graph }

end Model

end Interlock
