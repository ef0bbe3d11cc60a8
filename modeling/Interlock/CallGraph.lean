import Interlock.Fault
import Interlock.Walk
/-!
# Call graphs

A call graph knows the methods by name, the call sites inside them and the possible targets of each
call site. Not every edge is run under the caller's locks: a static initializer runs in a context of
its own, a started thread runs elsewhere, and targets under excluded name prefixes are taken as
opaque. The other edges are visible, and `CallGraph.reachable` follows these alone.
-/

namespace Interlock

/-- How a call edge comes about. -/
inductive CallKind where
  /-- A call with one static target. -/
  | direct
  /-- A dispatch on the receiver's type. -/
  | virtual
  /-- The implicit run of a class initializer. -/
  | staticInitializer
  /-- The entry point of a started thread. -/
  | threadStart
deriving DecidableEq, Repr, Inhabited

namespace CallKind

/-- The kinds in order of declaration. -/
def all : List CallKind := [direct, virtual, staticInitializer, threadStart]

/-- The spelling of a kind. -/
def name : CallKind → String
  | direct => "direct"
  | virtual => "virtual"
  | staticInitializer => "static_initializer"
  | threadStart => "thread_start"

/-- The target runs under the locks of the caller. -/
def underCallerLocks : CallKind → Bool
  | direct | virtual => true
  | staticInitializer | threadStart => false

end CallKind

/-- An edge from a call site to one possible target. -/
structure CallEdge where
  target : MethodId
  kind : CallKind
deriving DecidableEq, Repr

/-- A call site inside a method. -/
structure CallSite where
  caller : MethodId
  edges : List CallEdge := []
deriving DecidableEq, Repr

/-- The text starts with the given characters. -/
def startsWith (text start : String) : Bool := start.toList.isPrefixOf text.toList

/-- A call with the kind, into the method with the name, is visible under the exclusions. -/
def visibleCall (excluded : List String) (kind : CallKind) (target : String) : Bool :=
  kind.underCallerLocks && !excluded.any (startsWith target)

/-- Methods, call sites and the exclusions in force. -/
structure CallGraph where
  /-- The names of the methods, by number. -/
  methods : List String := []
  sites : List CallSite := []
  /-- Starts of method names whose methods are opaque. -/
  excluded : List String := []
deriving DecidableEq, Repr, Inhabited

namespace CallGraph

/-- The graph without methods. -/
def empty : CallGraph := {}

/-- The number of the method with a name. -/
def methodId? (g : CallGraph) (name : String) : Option MethodId := g.methods.findIdx? (· == name)

/-- The name of a method. -/
def methodName? (g : CallGraph) (id : MethodId) : Option String := g.methods[id]?

/-- The method that a call site is in. -/
def caller? (g : CallGraph) (id : SiteId) : Option MethodId := (g.sites[id]?).map (·.caller)

/-- Adds a method, unless one has the name already. -/
def addMethod (g : CallGraph) (name : String) : CallGraph × MethodId :=
  match g.methodId? name with
  | some id => (g, id)
  | none => ({ g with methods := g.methods ++ [name] }, g.methods.length)

/-- The method exists. -/
def checkMethod (g : CallGraph) (id : MethodId) : Except Fault Unit :=
  if id < g.methods.length then .ok () else .error (.model (.unknownMethodId id))

/-- Adds a call site to a method. -/
def addSite (g : CallGraph) (caller : MethodId) : Except Fault (CallGraph × SiteId) := do
  g.checkMethod caller
  return ({ g with sites := g.sites ++ [{ caller }] }, g.sites.length)

/-- Adds an edge to a call site, unless it has the edge already. The target is checked first. -/
def addEdge (g : CallGraph) (id : SiteId) (target : MethodId) (kind : CallKind) :
    Except Fault CallGraph := do
  g.checkMethod target
  if id < g.sites.length then
    let edge : CallEdge := { target, kind }
    return { g with sites := g.sites.modify id fun site =>
      if site.edges.contains edge then site else { site with edges := site.edges ++ [edge] } }
  else throw (.model (.unknownSiteId id))

/-- Adds a call site with one direct edge. Where the target does not exist the call site stays,
without an edge. -/
def addCall (g : CallGraph) (caller target : MethodId) : CallGraph × Except Fault SiteId :=
  match g.addSite caller with
  | .error f => (g, .error f)
  | .ok (g, id) =>
    match g.addEdge id target .direct with
    | .error f => (g, .error f)
    | .ok g => (g, .ok id)

/-- The edge is visible under the exclusions in force. -/
def isVisible (g : CallGraph) (edge : CallEdge) : Bool :=
  visibleCall g.excluded edge.kind ((g.methodName? edge.target).getD "")

/-- The targets of the visible edges of a call site. A target with edges of two kinds is there
twice. -/
def visibleTargets (g : CallGraph) (id : SiteId) : List MethodId :=
  match g.sites[id]? with
  | some site => (site.edges.filter g.isVisible).map (·.target)
  | none => []

/-- The call sites inside a method, in order of creation. -/
def sitesIn (g : CallGraph) (method : MethodId) : List SiteId :=
  (List.range g.sites.length).filter fun id => g.caller? id == some method

/-- The visible targets of all call sites inside a method. -/
def callees (g : CallGraph) (method : MethodId) : List MethodId :=
  (g.sitesIn method).flatMap g.visibleTargets

/-- The methods that a call may run into under the caller's locks: the visible targets of the call
site, and whatever these call visibly, nearest first. -/
def reachable (g : CallGraph) (id : SiteId) : List MethodId :=
  Walk.nodes g.callees g.methods.length (g.visibleTargets id)

end CallGraph

end Interlock
