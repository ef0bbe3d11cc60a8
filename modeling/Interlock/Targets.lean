import Interlock.Arena
/-!
# Targets of sections

While a section runs it may enter others: those whose entering method is among the methods that its
call sites reach. These methods are asked of an oracle once and kept with the section, even if the
oracle changes later.
-/

namespace Interlock

/-- The methods that may run, under the caller's locks, because of a call at a call site. -/
abbrev Oracle := SiteId → List MethodId

namespace Section

/-- Asks the oracle for the section's targets, unless they are known. -/
def withTargets (oracle : Oracle) (s : Section) : Section :=
  match s.targets with
  | some _ => s
  | none => { s with targets := some (.ofList (s.invokes.flatMap oracle)) }

/-- The first section may enter the second while it runs. -/
def enters (outer inner : Section) : Bool :=
  match outer.targets with
  | some targets => targets.contains inner.method
  | none => false

end Section

namespace Arena

/-- Makes the targets of one section known. -/
def ensureTargets (a : Arena) (oracle : Oracle) (id : SectionId) :
    Except Fault (Arena × SortedSet MethodId) := do
  let s := (← a.section? id).withTargets oracle
  return (a.modifySection id fun _ => s, s.targets.getD .empty)

/-- Makes the targets of all sections known. -/
def ensureAllTargets (a : Arena) (oracle : Oracle) : Arena :=
  { a with sections := a.sections.map (·.withTargets oracle) }

/-- The outer section may enter the inner one. The inner section is looked up first. -/
def enters (a : Arena) (outer inner : SectionId) : Except Fault Bool := do
  let i ← a.section? inner
  let o ← a.section? outer
  return o.enters i

/-- The outer section may enter the inner one; sections that do not exist enter nothing. -/
def mayEnter (a : Arena) (outer inner : SectionId) : Bool :=
  match a.sections[outer]?, a.sections[inner]? with
  | some o, some i => o.enters i
  | _, _ => false

end Arena

end Interlock
