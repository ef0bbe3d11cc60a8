import Interlock.Proofs.CallGraph.Chains
import Interlock.Proofs.Checked.GroupOrder
import Interlock.Proofs.Editing

/-!
# Construction, one write after the other

The operations that build a program return a new state or a fault, so what they have written before
a fault is not seen in them. Here they are written out as computations that make one write after the
other, and leave what was written where they fail.

Most of them look up all that they need before they write, so they leave the state as it is where
they fail (`settleOr`). The two that are made of others do not: a section is added before its group
is looked up (`enter_eq`), and a call site before its target is (`addCall_eq`).
-/

namespace Interlock.Checked

variable {α σ : Type}

/-! ## The writes -/

/-- Looks something up in a state. -/
def demand (f : σ → Except Fault α) : EStateM Trap σ α := fun s =>
  match f s with
  | .ok x => .ok x s
  | .error cause => .error (.fault cause) s

/-- Takes a section out of the group that its record names. -/
def leave (i : SectionId) : Option GroupId → Edit Unit
  | none => return ()
  | some k => editGroup k fun r => { r with members := r.members.erase i }

/-- Puts a section on the list of a group, and gives it the number. -/
def join (i : SectionId) (g : GroupId) (number : Int) : Edit Unit := do
  editGroup g fun r => { r with members := r.members.insert i }
  editSection i fun s => { s with group := some g, setNumber := number }

/-- Puts a section into a group, out of the group that it was in. -/
def assign (i : SectionId) (g : GroupId) : Edit Unit := do
  let group ← ask (·.group? g)
  let s ← ask (·.section? i)
  leave i s.group
  join i g group.number

/-- Adds a section and puts it into a group. -/
def enter (s : Section) (g : GroupId) : Edit SectionId := do
  let i ← apply fun a => .ok (a.addSection s)
  assign i g
  return i

/-- Adds a lock at the end of a section's lockset, unless the section holds it. -/
def acquire (i : SectionId) (key : LockKey) : Edit Bool := do
  let s ← ask (·.section? i)
  if s.holds key then return false
  editSection i fun s => { s with lockset := s.lockset ++ [key] }
  return true

/-- Gives a section another lockset. -/
def replaceLockset (i : SectionId) (lockset : List LockKey) : Edit Unit := do
  let _ ← ask (·.section? i)
  editSection i fun s => { s with lockset }

/-- Lets a key stand for a lock that has a number already. -/
def addAlias (key : LockKey) (n : LockNum) : EStateM Trap LockTable Unit := do
  let t ← get
  if !t.isAllocated n then throw (.fault (.unknownLock s!"lock #{n}"))
  match t.find? key with
  | some existing =>
    if existing = n then return () else throw (.fault (.model (.aliasTaken key.text existing n)))
  | none => set { t with numbers := (key, n) :: t.numbers }

/-- Adds a call site to a method. -/
def addSite (caller : MethodId) : EStateM Trap CallGraph SiteId := do
  demand (·.checkMethod caller)
  let i := (← get).sites.length
  modify fun g => { g with sites := g.sites ++ [{ caller }] }
  return i

/-- Adds an edge to a call site, unless it has the edge already. -/
def addEdge (i : SiteId) (target : MethodId) (kind : CallKind) : EStateM Trap CallGraph Unit := do
  demand (·.checkMethod target)
  if i < (← get).sites.length then
    let edge : CallEdge := { target, kind }
    modify fun g =>
      { g with sites := g.sites.modify i fun site =>
          if site.edges.contains edge then site else { site with edges := site.edges ++ [edge] } }
  else throw (.fault (.model (.unknownSiteId i)))

/-- Adds a call site with one direct edge. -/
def addCall (caller target : MethodId) : EStateM Trap CallGraph SiteId := do
  let i ← addSite caller
  addEdge i target .direct
  return i

/-! ## The operations -/

/-- What an operation has returned, in the state that it left. -/
def settle : σ × Except Trap α → EStateM.Result Trap σ α
  | (s, .ok x) => .ok x s
  | (s, .error t) => .error t s

/-- What an operation has returned that leaves the state where it fails. -/
def settleOr (s : σ) : Except Trap (σ × α) → EStateM.Result Trap σ α
  | .ok (s', x) => .ok x s'
  | .error t => .error t s

/-- An assignment is trapped by a group that does not exist also where the section's record names
it. -/
def assignTrap (a : Arena) : Arena.AssignFault → Trap
  | .fault cause => .fault cause
  | .lostGroup k => .outOfRange k a.groups.length

variable {a b : Arena} {t : LockTable} {c : CallGraph} {i : SectionId}
  {g into source : GroupId} {s : Section}
  {key : LockKey} {lockset : List LockKey} {n : LockNum} {caller target : MethodId} {site : SiteId}
  {kind : CallKind}

lemma ask_error {f : Arena → Except Fault α} {cause : Fault} (h : f a = .error cause) :
    ask f a = .error (.fault cause) a := by
  rw [ask, read, h]
  rfl

lemma demand_ok {f : σ → Except Fault α} {s : σ} {x : α} (h : f s = .ok x) :
    demand f s = .ok x s := by
  rw [demand, h]

lemma demand_error {f : σ → Except Fault α} {s : σ} {cause : Fault} (h : f s = .error cause) :
    demand f s = .error (.fault cause) s := by
  rw [demand, h]

lemma editGroup_error {f : Group → Group} (out : a.groups.length ≤ g) :
    editGroup g f a = .error (.outOfRange g a.groups.length) a :=
  if_neg (Nat.not_lt.mpr out)

lemma leave_ok {named : Option GroupId} (found : ∀ k, named = some k → k < a.groups.length) :
    leave i named a = .ok () (a.leaving i named) := by
  cases named with
  | none => rfl
  | some k => exact editGroup_ok (found k rfl)

lemma join_ok {number : Int} (hg : g < a.groups.length) (hi : i < a.sections.length) :
    join i g number a = .ok () (a.joining i g number) :=
  (bind_edit (editGroup_ok hg)).trans (editSection_ok hi)

/-- An assignment looks up the group and the section, and finds the group that is left, before it
writes. -/
lemma assign_eq : assign i g a =
    settleOr a (((a.assignGroup i g).mapError (assignTrap a)).map (·, ())) := by
  unfold assign
  cases hg : a.group? g with
  | error cause =>
    rw [bind_edit_error (ask_error hg), Arena.assignGroup, hg]
    rfl
  | ok group =>
    cases hs : a.section? i with
    | error cause =>
      rw [bind_edit (ask_ok hg), bind_edit_error (ask_error hs), Arena.assignGroup, hg, hs]
      rfl
    | ok s =>
      rw [bind_edit (ask_ok hg), bind_edit (ask_ok hs)]
      have hg := Arena.group?_eq_ok.mp hg
      have hs := Arena.section?_eq_ok.mp hs
      -- a record that was edited may name a group that does not exist
      by_cases lost : ∃ k, s.group = some k ∧ a.groups.length ≤ k
      · obtain ⟨k, hk, lost⟩ := lost
        have stops : leave i s.group a = .error (.outOfRange k a.groups.length) a := by
          rw [hk]
          exact editGroup_error lost
        rw [bind_edit_error stops, Arena.assignGroup_of_lost hg hs hk lost]
        rfl
      · have found : ∀ k, s.group = some k → k < a.groups.length :=
          fun k hk => Nat.lt_of_not_le fun le => lost ⟨k, hk, le⟩
        have there : g < (a.leaving i s.group).groups.length := by
          rw [Arena.length_groups_leaving]
          exact (List.getElem?_eq_some_iff.mp hg).1
        have inside : i < (a.leaving i s.group).sections.length := by
          rw [Arena.sections_leaving]
          exact (List.getElem?_eq_some_iff.mp hs).1
        rw [bind_edit (leave_ok found), join_ok there inside,
          Arena.assignGroup_of_found hg hs found]
        rfl

/-- A section that is added stays where it cannot be assigned. -/
lemma enter_eq : enter s g a =
    settle ((a.addSectionTo s g).1, (a.addSectionTo s g).2.mapError (assignTrap a)) := by
  have added : apply (fun a => .ok (a.addSection s)) a =
      .ok a.sections.length (a.addSection s).1 := rfl
  unfold enter Arena.addSectionTo
  rw [bind_edit added]
  -- the assignment begins in the arena that has the section already; where it fails, it leaves
  -- that arena
  have assigned := assign_eq (a := (a.addSection s).1) (i := a.sections.length) (g := g)
  dsimp only [Arena.addSection] at assigned ⊢
  cases hb : Arena.assignGroup _ a.sections.length g with
  | error cause =>
    rw [hb] at assigned
    rw [bind_edit_error assigned]
    rfl
  | ok b =>
    rw [hb] at assigned
    rw [bind_edit assigned]
    rfl

lemma acquire_eq : acquire i key a = settleOr a (look (a.acquire i key)) := by
  unfold acquire
  cases hs : a.section? i with
  | error cause =>
    rw [bind_edit_error (ask_error hs), Arena.acquire, hs]
    rfl
  | ok s =>
    have inside : i < a.sections.length :=
      (List.getElem?_eq_some_iff.mp (Arena.section?_eq_ok.mp hs)).1
    rw [bind_edit (ask_ok hs), Arena.acquire, bind_ok hs]
    cases s.holds key with
    | true => rfl
    | false => exact bind_edit (editSection_ok inside)

lemma replaceLockset_eq : replaceLockset i lockset a =
    settleOr a (look ((a.replaceLockset i lockset).map (·, ()))) := by
  unfold replaceLockset
  cases hs : a.section? i with
  | error cause =>
    rw [bind_edit_error (ask_error hs), Arena.replaceLockset, hs]
    rfl
  | ok s =>
    have inside : i < a.sections.length :=
      (List.getElem?_eq_some_iff.mp (Arena.section?_eq_ok.mp hs)).1
    rw [bind_edit (ask_ok hs), Arena.replaceLockset, bind_ok hs]
    exact editSection_ok inside

lemma merge_eq (exist : a.MembersExist) : merge into source a =
    settleOr a (look ((a.mergeGroups into source).map (·, ()))) := by
  cases ht : a.group? into with
  | error cause =>
    unfold merge
    rw [bind_edit_error (ask_error ht), Arena.mergeGroups, ht]
    rfl
  | ok target =>
    cases he : a.group? source with
    | error cause =>
      unfold merge
      rw [bind_edit (ask_ok ht), bind_edit_error (ask_error he), Arena.mergeGroups, ht, he]
      rfl
    | ok emptied =>
      have ht := Arena.group?_eq_ok.mp ht
      have he := Arena.group?_eq_ok.mp he
      obtain ⟨b, hb⟩ := Arena.exists_mergeGroups ht he
      rw [merge_ok ht he (fun i hi => exist ⟨emptied, he, hi⟩) hb, hb]
      rfl

lemma addAlias_eq : addAlias key n t = settleOr t (look ((t.addAlias key n).map (·, ()))) := by
  unfold addAlias LockTable.addAlias
  have read : (get : EStateM Trap LockTable LockTable) t = .ok t t := rfl
  rw [bind_edit read]
  cases t.isAllocated n with
  | false => rfl
  | true =>
    cases t.find? key with
    | none => rfl
    | some existing =>
      by_cases same : existing = n
      · simp only [same]
        rfl
      · simp only [same]
        rfl

lemma addSite_eq : addSite caller c = settleOr c (look (c.addSite caller)) := by
  unfold addSite CallGraph.addSite
  cases hm : c.checkMethod caller with
  | error cause =>
    have asked : demand (·.checkMethod caller) c = .error (.fault cause) c := demand_error hm
    rw [bind_edit_error asked]
    rfl
  | ok _ =>
    have asked : demand (·.checkMethod caller) c = .ok () c := demand_ok hm
    rw [bind_edit asked]
    rfl

lemma addEdge_eq : addEdge site target kind c =
    settleOr c (look ((c.addEdge site target kind).map (·, ()))) := by
  unfold addEdge CallGraph.addEdge
  cases hm : c.checkMethod target with
  | error cause =>
    have asked : demand (·.checkMethod target) c = .error (.fault cause) c := demand_error hm
    rw [bind_edit_error asked]
    rfl
  | ok _ =>
    have asked : demand (·.checkMethod target) c = .ok () c := demand_ok hm
    have read : (get : EStateM Trap CallGraph CallGraph) c = .ok c c := rfl
    rw [bind_edit asked, bind_edit read, bind_ok rfl]
    by_cases inside : site < c.sites.length
    · simp only [inside]
      rfl
    · simp only [inside]
      rfl

lemma addCall_eq : addCall caller target c =
    settle ((c.addCall caller target).1, look (c.addCall caller target).2) := by
  unfold addCall CallGraph.addCall
  cases hs : c.addSite caller with
  | error cause =>
    have stops : addSite caller c = .error (.fault cause) c := by
      rw [addSite_eq, hs]
      rfl
    rw [bind_edit_error stops]
    rfl
  | ok r =>
    have added : addSite caller c = .ok r.2 r.1 := by
      rw [addSite_eq, hs]
      rfl
    rw [bind_edit added]
    dsimp only
    cases he : r.1.addEdge r.2 target .direct with
    | error cause =>
      have stops : addEdge r.2 target .direct r.1 = .error (.fault cause) r.1 := by
        rw [addEdge_eq, he]
        rfl
      rw [bind_edit_error stops]
      rfl
    | ok c' =>
      have joined : addEdge r.2 target .direct r.1 = .ok () c' := by
        rw [addEdge_eq, he]
        rfl
      rw [bind_edit joined]
      rfl

end Interlock.Checked
