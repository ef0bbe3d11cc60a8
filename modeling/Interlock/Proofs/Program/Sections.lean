import Interlock.Proofs.Membership
import Interlock.Proofs.Program.Calls
import Interlock.Proofs.Program.Locks

/-!
# Sections of a model

`Model.addSection` goes through if the section names a method, labels, locks and a group that there
are (`Model.SectionResolves`, `settles_addSection`). The record that is added is in the method that
the section names and has the call sites that it names, or all those of its method where it names
none (`Model.Enters`). Sections keep their order, and the arena stays coherent (`Model.Houses`).
-/

namespace Interlock

open List (Forall₂)

variable {m : Model} {c : Model.Calls} {a b : Arena} {t : LockTable} {s : SectionSpec} {r : Section}
  {specs : List SectionSpec} {names : List String} {calls : List (MethodId × CallSpec)}
    {site : SiteId} {j : MethodId}

/-! ## Members that are found one by one -/

/-- What is found for the members of a list. -/
lemma mem_of_forall₂ {α β : Type} {f : α → Option β} {l : List α} {k : List β} {y : β}
    (h : Forall₂ (fun x y => f x = some y) l k) : y ∈ k ↔ ∃ x ∈ l, f x = some y := by
  induction h with
  | nil => simp
  | cons found _ ih =>
    simp only [List.mem_cons, exists_eq_or_imp, ih, found, Option.some_inj, eq_comm (a := y)]

/-- What stands in the places of a related list. -/
lemma getElem?_of_forall₂ {α β : Type} {R : α → β → Prop} {l : List α} {k : List β}
    {i : Nat} {y : β} (h : Forall₂ R l k) (hy : k[i]? = some y) : ∃ x, l[i]? = some x ∧ R x y := by
  obtain ⟨less, rfl⟩ := List.getElem?_eq_some_iff.mp hy
  have less' : i < l.length := h.length_eq ▸ less
  exact ⟨l[i], List.getElem?_eq_getElem less', h.get less' less⟩

/-- The call sites that were added are there, each once. -/
lemma addInvokes_spec (sites : List SiteId) (once : r.invokes.Nodup) :
    (r.addInvokes sites).invokes.Nodup ∧
      ∀ site, site ∈ (r.addInvokes sites).invokes ↔ site ∈ r.invokes ∨ site ∈ sites := by
  induction sites generalizing r with
  | nil => exact ⟨once, by simp [Section.addInvokes]⟩
  | cons first rest ih =>
    by_cases old : first ∈ r.invokes
    · have same : r.addInvokes (first :: rest) = r.addInvokes rest := by
        simp [Section.addInvokes, old]
      rw [same]
      refine ⟨(ih once).1, fun site => ?_⟩
      rw [(ih once).2, List.mem_cons]
      constructor
      · exact fun h => h.imp_right .inr
      · rintro (h | rfl | h)
        · exact .inl h
        · exact .inl old
        · exact .inr h
    · have added : r.addInvokes (first :: rest) =
          { r with invokes := r.invokes ++ [first] }.addInvokes rest := by
        simp [Section.addInvokes, old]
      have once' : (r.invokes ++ [first]).Nodup := List.concat_eq_append ▸ once.concat old
      obtain ⟨nodup, mem⟩ := ih (r := { r with invokes := r.invokes ++ [first] }) once'
      rw [added]
      refine ⟨nodup, fun site => ?_⟩
      rw [mem, List.mem_append, List.mem_singleton, List.mem_cons, or_assoc]

namespace Model

/-- The call sites inside a method are those that were made in it. -/
lemma mem_sitesIn_of_makes {g : CallGraph} (h : Forall₂ (Makes names) calls g.sites) :
    site ∈ g.sitesIn j ↔ ∃ call, calls[site]? = some (j, call) := by
  rw [CallGraph.sitesIn, List.mem_filter, List.mem_range, beq_iff_eq, CallGraph.caller?,
    Option.map_eq_some_iff]
  constructor
  · rintro ⟨_, made, hs, rfl⟩
    obtain ⟨⟨i, call⟩, there, makes⟩ := getElem?_of_forall₂ h hs
    exact ⟨call, makes.caller ▸ there⟩
  · rintro ⟨call, there⟩
    have less : site < g.sites.length := h.length_eq ▸ (List.getElem?_eq_some_iff.mp there).1
    have hs := List.getElem?_eq_getElem less
    obtain ⟨other, there', makes⟩ := getElem?_of_forall₂ h hs
    rw [there] at there'
    cases there'
    exact ⟨less, _, hs, makes.caller⟩

/-- The names of the methods. -/
def methodNames (m : Model) : List String := m.methods.map (·.name)

/-- What a section names was declared. -/
structure SectionResolves (m : Model) (s : SectionSpec) : Prop where
  method : s.method ∈ m.methodNames
  invokes : ∀ names, s.invokes = some names → ∀ label ∈ names, label ∈ labels (callSites m.methods)
  lockset : ∀ name ∈ s.lockset, NamesLock m.locks name
  group : ∀ g, s.group = some g → g < m.groups

/-- Call sites are those, among all that there are, that a section of a method asks for. -/
structure Asks (s : SectionSpec) (calls : List (MethodId × CallSpec)) (j : MethodId)
    (sites : List SiteId) :
    Prop where
  /-- A section that names no call sites has those of its method. -/
  own : s.invokes = none → ∀ site, site ∈ sites ↔ ∃ call, calls[site]? = some (j, call)
  /-- A section that names call sites has those that it names. -/
  named : ∀ names, s.invokes = some names → ∀ site, site ∈ sites ↔
    ∃ label ∈ names, HasLabel calls site label

/-- The record of a section that was declared. -/
structure Enters (m : Model) (s : SectionSpec) (r : Section) : Prop where
  name : r.name = s.name
  method : m.methodNames[r.method]? = some s.method
  owner : (m.methods[r.method]?).map (·.owner) = some r.owner
  lockset : r.lockset = s.lockset.map .value
  group : r.group = s.group
  /-- Each call site is there once. -/
  once : r.invokes.Nodup
  invokes : Asks s (callSites m.methods) r.method r.invokes
  /-- What the call sites reach is not known yet. -/
  targets : r.targets = none

/-- The call sites of a section are found if its labels are there. -/
lemma settles_sitesOf (h : c.Holds names calls) :
    Settles (sitesOf c s j) (∀ names, s.invokes = some names → ∀ label ∈ names,
      label ∈ labels calls)
      (Asks s calls j) := by
  unfold sitesOf
  cases invokes : s.invokes with
  | none =>
    refine .ok _ nofun rfl ⟨fun _ site => mem_sitesIn_of_makes h.sites, fun _ named => ?_⟩
    rw [invokes] at named
    cases named
  | some names =>
    refine (Settles.mapM (C := fun label => label ∈ labels calls)
      (T := fun label site => c.labelled.lookup label = some site) ?_).imp ?_ ?_
    · intro label _
      cases found : c.labelled.lookup label with
      | none =>
        refine .error _ (fun mem => ?_) rfl
        rw [← h.isSome_lookup, found] at mem
        cases mem
      | some site => exact .ok site (h.isSome_lookup.mp (by rw [found]; rfl)) rfl rfl
    · constructor
      · rintro all _ ⟨⟩
        exact all
      · exact fun all => all names rfl
    · intro sites _ found
      refine ⟨fun unnamed => ?_, fun _ named site => ?_⟩
      · rw [invokes] at unnamed
        cases unnamed
      · rw [invokes] at named
        cases named
        rw [mem_of_forall₂ found]
        simp only [h.labelled]

/-- The keys of a section are found if they are names of locks. -/
lemma settles_keysOf (h : t.Registers m.locks) :
    Settles (keysOf t s) (∀ name ∈ s.lockset, NamesLock m.locks name)
      (fun keys => keys = s.lockset.map .value) := by
  have each : ∀ name ∈ s.lockset, Settles
      (if t.contains (.value name) then .ok (.value name)
        else .error (.model (.undeclaredLock s.name name)) : Except Fault LockKey)
      (NamesLock m.locks name) (fun key => .value name = key) := by
    intro name _
    split
    · rename_i known
      exact .ok _ (h.contains.mp known) rfl rfl
    · rename_i unknown
      exact .error _ (fun known => unknown (h.contains.mpr known)) rfl
  refine (Settles.mapM each).imp Iff.rfl ?_
  intro keys _ found
  have map : Forall₂ (· = ·) (s.lockset.map .value) keys := List.forall₂_map_left_iff.mpr found
  rw [List.forall₂_eq_eq_eq] at map
  exact map.symm

/-- The class that declares a section's method. -/
lemma owner_of_methodNames (nodup : m.methodNames.Nodup)
    (there : m.methodNames[j]? = some s.method) :
    (m.methods[j]?).map (·.owner) =
      some (((m.methods.find? (·.name == s.method)).map MethodSpec.owner).getD "") := by
  unfold methodNames at nodup there
  rw [List.getElem?_map, Option.map_eq_some_iff] at there
  obtain ⟨method, hj, named⟩ := there
  have first : m.methods.find? (·.name == s.method) = some method := by
    obtain ⟨less, rfl⟩ := List.getElem?_eq_some_iff.mp hj
    refine List.find?_eq_some_iff_getElem.mpr
      ⟨beq_iff_eq.mpr named, j, less, rfl, fun i before => ?_⟩
    rw [Bool.not_eq_true', beq_eq_false_iff_ne, ← named]
    intro same
    have less' : i < (m.methods.map (·.name)).length := by
      rw [List.length_map]
      exact before.trans less
    refine Nat.ne_of_lt before ((List.getElem?_inj less' nodup).mp ?_)
    rw [List.getElem?_map, List.getElem?_map, hj, List.getElem?_eq_getElem (before.trans less)]
    exact congrArg some same
  rw [hj, first]
  rfl

/-- The record of a section whose method and call sites were found. -/
lemma enters_record {sites : List SiteId} (nodup : m.methodNames.Nodup)
    (found : m.methodNames[j]? = some s.method) (asked : Asks s (callSites m.methods) j sites)
    (number : Int) :
    m.Enters s { Section.addInvokes {
      name := s.name, method := j,
      owner := ((m.methods.find? (·.name == s.method)).map MethodSpec.owner).getD "" } sites with
      lockset := s.lockset.map .value, group := s.group, setNumber := number } := by
  obtain ⟨once, mem⟩ := addInvokes_spec sites (r := {
    name := s.name, method := j,
    owner := ((m.methods.find? (·.name == s.method)).map MethodSpec.owner).getD "" }) .nil
  simp only [List.not_mem_nil, false_or] at mem
  refine ⟨rfl, found, owner_of_methodNames nodup found, rfl, rfl, once, ⟨?_, ?_⟩, rfl⟩
  · exact fun unnamed site => (mem site).trans (asked.own unnamed site)
  · exact fun names named site => (mem site).trans (asked.named names named site)

/-- What is known of an arena once sections were added to it. -/
structure Houses (m : Model) (t : LockTable) (specs : List SectionSpec) (a : Arena) : Prop where
  coherent : a.Coherent
  locks : a.locks = t
  groups : a.groups.length = m.groups
  sections : Forall₂ m.Enters specs a.sections

/-- A section is added if what it names was declared. -/
lemma settles_addSection (nodup : m.methodNames.Nodup)
    (h : c.Holds m.methodNames (callSites m.methods))
    (registers : t.Registers m.locks) (houses : m.Houses t specs a) :
    Settles (addSection m c a s) (m.SectionResolves s) (m.Houses t (specs ++ [s])) := by
  unfold addSection
  refine (settles_resolveMethod (h.methods ▸ nodup)).bind ?_ fun all => h.methods ▸ all.method
  intro method declared found
  rw [h.methods] at declared found
  dsimp only
  refine (settles_sitesOf h).bind ?_ fun all => all.invokes
  intro sites labels asked
  rw [houses.locks]
  refine (settles_keysOf registers).bind ?_ fun all => all.lockset
  rintro _ locks rfl
  have enters := enters_record nodup found asked
  have resolves : (∀ g, s.group = some g → g < m.groups) → m.SectionResolves s :=
    fun group => ⟨declared, labels, locks, group⟩
  cases group : s.group with
  | none =>
    rw [group] at enters resolves
    refine .ok _ (resolves nofun) rfl ⟨houses.coherent.addSection, houses.locks, houses.groups, ?_⟩
    exact List.rel_append houses.sections (.cons (enters 0) .nil)
  | some g =>
    rw [group] at enters resolves
    dsimp only
    split
    · rename_i out
      exact .error _ (fun all => Nat.not_lt.mpr out (all.group g group)) rfl
    · rename_i inside
      have there : g < a.groups.length := houses.groups ▸ Nat.not_le.mp inside
      obtain ⟨sections, locks, groups⟩ :=
        Arena.addSectionTo_of_found (List.getElem?_eq_getElem there)
      refine .ok _ (resolves ?_) rfl
        ⟨houses.coherent.addSectionTo, locks.trans houses.locks, groups.trans houses.groups, ?_⟩
      · rintro _ ⟨⟩
        exact Nat.not_le.mp inside
      · rw [sections]
        exact List.rel_append houses.sections (.cons (enters _) .nil)

/-- All sections are added if what each of them names was declared. -/
lemma settles_sections (nodup : m.methodNames.Nodup)
    (h : c.Holds m.methodNames (callSites m.methods))
    (registers : t.Registers m.locks) (houses : m.Houses t [] a) :
    Settles (m.criticalSections.foldlM (addSection m c) a)
      (∀ s ∈ m.criticalSections, m.SectionResolves s) (m.Houses t m.criticalSections) := by
  apply Settles.foldlM (C := fun before => ∀ s ∈ before, m.SectionResolves s)
  · exact nofun
  · exact houses
  · intro before s a _ resolve houses
    refine (settles_addSection nodup h registers houses).imp ?_ fun _ _ houses => houses
    rw [List.forall_mem_append, List.forall_mem_singleton]
    exact ⟨fun last => ⟨resolve, last⟩, And.right⟩
  · exact fun before s all => fun r hr => all r (List.mem_append_left _ hr)

end Model

end Interlock
