import Interlock.Fault
import Interlock.Section
import Interlock.Lock.Table
/-!
# The arena

The arena owns every critical section, every group and the lock table of a program. Sections and
groups are referred to by number, so that a merge of groups or a new lockset leaves no stale
reference. `Arena.validate` states what an analysis relies on: every key of a lockset has a number,
and membership in groups is recorded alike by the section and by the group.
-/

namespace Interlock

/-- The sections, the groups and the locks of a program. -/
structure Arena where
  sections : List Section := []
  groups : List Group := []
  locks : LockTable := .empty
deriving DecidableEq, Inhabited

namespace Arena

/-- The arena without sections, groups and locks. -/
def empty : Arena := {}

/-- The numbers of the sections in order of creation. -/
def sectionIds (a : Arena) : List SectionId := List.range a.sections.length

/-- The section with a number. -/
def section? (a : Arena) (id : SectionId) : Except Fault Section :=
  match a.sections[id]? with
  | some s => .ok s
  | none => .error (.unknownSection id)

/-- The group with a number. -/
def group? (a : Arena) (id : GroupId) : Except Fault Group :=
  match a.groups[id]? with
  | some g => .ok g
  | none => .error (.unknownGroup id)

/-- The name of a section; a section that does not exist has the empty one. -/
def nameOf (a : Arena) (id : SectionId) : String := ((a.sections[id]?).map (·.name)).getD ""

/-- Changes one section. -/
def modifySection (a : Arena) (id : SectionId) (f : Section → Section) : Arena :=
  { a with sections := a.sections.modify id f }

/-- Changes one group. -/
def modifyGroup (a : Arena) (id : GroupId) (f : Group → Group) : Arena :=
  { a with groups := a.groups.modify id f }

/-- The count of groups that still have a member. -/
def liveGroupCount (a : Arena) : Nat := a.groups.countP (!·.members.isEmpty)

/-! ## Construction -/

/-- Adds an empty group. Groups are numbered from one. -/
def addGroup (a : Arena) : Arena × GroupId :=
  let id := a.groups.length
  ({ a with groups := a.groups ++ [{ number := id + 1 }] }, id)

/-- Adds a section that belongs to no group, whatever its record says. -/
def addSection (a : Arena) (s : Section) : Arena × SectionId :=
  ({ a with sections := a.sections ++ [{ s with group := none, setNumber := 0 }] },
    a.sections.length)

/-- Why a section could not be put into a group. -/
inductive AssignFault where
  | fault (cause : Fault)
  /-- The section's record names a group that does not exist, so it cannot be left. -/
  | lostGroup (id : GroupId)
deriving DecidableEq, Repr

/-- Puts a section into a group, out of the group that it was in. -/
def assignGroup (a : Arena) (sectionId : SectionId) (groupId : GroupId) :
    Except AssignFault Arena := do
  let group ← (a.group? groupId).mapError .fault
  let s ← (a.section? sectionId).mapError .fault
  let left ← match s.group with
    | none => pure a
    | some previous =>
      if previous < a.groups.length then
        pure (a.modifyGroup previous fun g => { g with members := g.members.erase sectionId })
      else throw (.lostGroup previous)
  let joined := left.modifyGroup groupId fun g => { g with members := g.members.insert sectionId }
  return joined.modifySection sectionId fun s =>
    { s with group := some groupId, setNumber := group.number }

/-- Adds a section and puts it into a group. Where the group does not exist the section stays, in no
group. -/
def addSectionTo (a : Arena) (s : Section) (groupId : GroupId) :
    Arena × Except AssignFault SectionId :=
  let (a, id) := a.addSection s
  match a.assignGroup id groupId with
  | .ok a => (a, .ok id)
  | .error f => (a, .error f)

/-! ## Locks of sections -/

/-- The lock numbers of a lockset, in order of acquisition. -/
def numbersOf (a : Arena) (lockset : List LockKey) : Except Fault (List LockNum) :=
  lockset.mapM a.locks.number

/-- The lock numbers of a section, in order of acquisition. -/
def lockNums (a : Arena) (id : SectionId) : Except Fault (List LockNum) := do
  a.numbersOf (← a.section? id).lockset

/-- Some static lock is among both lists. -/
def shareStatic (xs ys : List LockNum) : Bool :=
  xs.any fun n => n.isStatic && ys.contains n

/-- Some static lock is held by both sections, so they exclude each other. The locks of the second
are looked up first. -/
def sharesStatic (a : Arena) (s t : SectionId) : Except Fault Bool := do
  let theirs ← a.lockNums t
  let ours ← a.lockNums s
  return shareStatic ours theirs

/-- The lockset of a section by lock numbers. -/
def showLockset (a : Arena) (id : SectionId) : Except Fault String := do
  return a.locks.showLockset (← a.section? id).lockset

/-! ## Repair -/

/-- Moves every member of the second group into the first, and leaves the second empty. -/
def mergeGroups (a : Arena) (into source : GroupId) : Except Fault Arena := do
  let target ← a.group? into
  let emptied ← a.group? source
  if into = source then return a
  let moved := emptied.members
  let renamed := moved.toList.foldl (fun a member => a.modifySection member fun s =>
    { s with group := some into, setNumber := target.number }) a
  return (renamed.modifyGroup source fun g => { g with members := .empty }).modifyGroup into
    fun g => { g with members := g.members.union moved }

/-- Adds a lock at the end of a section's lockset, unless the section holds it. Says whether it was
added. -/
def acquire (a : Arena) (id : SectionId) (key : LockKey) : Except Fault (Arena × Bool) := do
  let s ← a.section? id
  if s.holds key then return (a, false)
  return (a.modifySection id fun s => { s with lockset := s.lockset ++ [key] }, true)

/-- Gives a section another lockset. -/
def replaceLockset (a : Arena) (id : SectionId) (lockset : List LockKey) : Except Fault Arena := do
  let _ ← a.section? id
  return a.modifySection id fun s => { s with lockset }

/-! ## Validity -/

/-- What one section's record must satisfy. -/
def checkSection (a : Arena) (id : SectionId) (s : Section) : Except Fault Unit := do
  let _ ← a.numbersOf s.lockset
  match s.group with
  | some groupId =>
    let g ← a.group? groupId
    if !g.members.contains id then throw (.arena (.notMember s.name groupId))
    if s.setNumber ≠ g.number then throw (.arena (.wrongNumber s.name s.setNumber g.number))
  | none =>
    if 0 < s.setNumber then throw (.arena (.lockedUngrouped s.name s.setNumber))

/-- What one group's record must satisfy. -/
def checkGroup (a : Arena) (id : GroupId) (g : Group) : Except Fault Unit := do
  if g.number ≤ 0 then throw (.arena (.groupNumber id g.number))
  g.members.toList.forM fun member => do
    if (← a.section? member).group ≠ some id then throw (.arena (.strayMember id member))

/-- Checks the sections in order and then the groups in order; the first fault counts. -/
def validate (a : Arena) : Except Fault Unit := do
  a.sections.zipIdx.forM fun (s, id) => a.checkSection id s
  a.groups.zipIdx.forM fun (g, id) => a.checkGroup id g

end Arena

end Interlock
