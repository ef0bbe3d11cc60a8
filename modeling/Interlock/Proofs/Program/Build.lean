import Interlock.Proofs.CallGraph
import Interlock.Proofs.Program.Sections

/-!
# Programs that are built from models

`Model.build` goes through for the models that are well formed (`Model.WellFormed`) and for no
others. It then makes the program that the model describes (`Model.Describes`). For a model that is
not well formed it fails with a fault of the model, since a coherent arena whose locksets have known
keys passes its check (`Model.build_accepts`).
-/

namespace Interlock.Model

open List (Forall₂)

variable {m : Model} {p : Program} {t : LockTable}

/-- Every name of a model was declared, and declared once. -/
structure WellFormed (m : Model) : Prop where
  methods : m.methodNames.Nodup
  calls : CallsResolve m.methodNames (callSites m.methods)
  locks : LocksResolve m.locks
  sections : ∀ s ∈ m.criticalSections, m.SectionResolves s

/-- The program has what the model declares, in the order of the declarations. -/
structure Describes (m : Model) (p : Program) : Prop where
  methods : p.calls.methods = m.methodNames
  sites : Forall₂ (Makes m.methodNames) (callSites m.methods) p.calls.sites
  locks : p.arena.locks.Registers m.locks
  groups : p.arena.groups.length = m.groups
  coherent : p.arena.Coherent
  sections : Forall₂ m.Enters m.criticalSections p.arena.sections

/-- Before sections are added, the groups are there and have no members. -/
lemma houses_start :
    m.Houses t []
      { groups := (List.range m.groups).map fun (id : Nat) =>
        ({ number := id + 1 } : Group), locks := t } := by
  refine ⟨⟨?_, ?_, nofun, nofun⟩, rfl, ?_, .nil⟩
  · intro g i
    constructor
    · rintro ⟨group, hg, listed⟩
      rw [List.getElem?_map] at hg
      obtain ⟨_, _, rfl⟩ := Option.map_eq_some_iff.mp hg
      exact absurd listed SortedSet.not_mem_empty
    · nofun
  · intro g r hr
    rw [List.getElem?_map] at hr
    obtain ⟨id, hid, rfl⟩ := Option.map_eq_some_iff.mp hr
    obtain ⟨_, rfl⟩ := List.getElem?_eq_some_iff.mp hid
    rw [List.getElem_range]
  · rw [List.length_map, List.length_range]

/-- The arena passes its check once all sections were added. -/
lemma Houses.validate {a : Arena} (h : m.Houses t m.criticalSections a)
    (registers : t.Registers m.locks)
    (resolve : ∀ s ∈ m.criticalSections, m.SectionResolves s) : a.validate = .ok () := by
  apply Arena.validate_eq_ok.mpr
  apply h.coherent.valid
  intro i r hr key hk
  obtain ⟨s, hs, enters⟩ := getElem?_of_forall₂ h.sections hr
  rw [enters.lockset] at hk
  obtain ⟨name, mem, rfl⟩ := List.mem_map.mp hk
  rw [h.locks]
  exact registers.exists_find?.mpr ((resolve s (List.mem_of_getElem? hs)).lockset name mem)

/-- The arena of a program that a model describes passes its check. -/
lemma Describes.validate (h : m.Describes p) (wellFormed : m.WellFormed) :
    p.arena.validate = .ok () := by
  have houses : m.Houses p.arena.locks m.criticalSections p.arena :=
    ⟨h.coherent, rfl, h.groups, h.sections⟩
  exact houses.validate h.locks wellFormed.sections

/-- The steps of a build, each under the condition that it decides. -/
lemma settles_build (m : Model) : Settles m.build m.WellFormed m.Describes := by
  unfold build
  refine (settles_addMethods (g := .empty) .nil).bind ?_ fun all => all.methods
  rintro _ (nodup : m.methodNames.Nodup) rfl
  refine (settles_calls nodup rfl rfl).bind ?_ fun all => all.calls
  intro c calls holds
  refine settles_locks.bind ?_ fun all => all.locks
  intro t locks registers
  refine (settles_sections nodup holds registers houses_start).bind ?_ fun all => all.sections
  intro a sections houses
  rw [houses.validate registers sections]
  refine .ok _ ⟨nodup, calls, locks, sections⟩ rfl ?_
  exact ⟨holds.methods, holds.sites, houses.locks ▸ registers, houses.groups, houses.coherent,
    houses.sections⟩

/-- The groups of a built program are numbered from one. -/
lemma numbered_of_build (built : m.build = .ok p) : p.arena.Numbered :=
  ((settles_build m).of_ok built).2.coherent.numbered

/-- The calls of a built program lead to methods that there are. -/
lemma closed_of_build (built : m.build = .ok p) : p.calls.Closed := by
  have describes := ((settles_build m).of_ok built).2
  intro site hs e he
  obtain ⟨i, hi⟩ := List.mem_iff_getElem?.mp hs
  obtain ⟨call, _, makes⟩ := getElem?_of_forall₂ describes.sites hi
  obtain ⟨_, target, _, there⟩ := (makes.edges e).mp he
  rw [describes.methods]
  exact (List.getElem?_eq_some_iff.mp there).1

/-- A model has a program exactly if it is well formed; the program is then what the model
describes, and otherwise the fault is one of the model. -/
theorem build_accepts (m : Model) :
    ((∃ p, m.build = .ok p) ↔ m.WellFormed) ∧
      (¬ m.WellFormed → ∃ cause, m.build = .error (.model cause)) ∧
      ∀ p, m.build = .ok p → m.Describes p := by
  have decided := settles_build m
  refine ⟨decided.exists_ok, decided.exists_cause, fun p built => ?_⟩
  exact (decided.of_ok built).2

end Interlock.Model
