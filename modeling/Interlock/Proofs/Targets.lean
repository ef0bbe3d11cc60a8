import Interlock.Targets
import Mathlib.Tactic.Common

/-!
# Targets that are known

`Arena.ensureAllTargets` changes nothing but the targets of sections, and those only where they are
not known (`Section.exists_withTargets`, `Arena.TargetsKnown.ensureAllTargets`). After it they are
known everywhere (`Arena.targetsKnown_ensureAllTargets`).
-/

namespace Interlock

variable {a : Arena} {oracle : Oracle} {i : SectionId}

/-- Nothing but the targets of a section changes. -/
lemma Section.exists_withTargets (s : Section) (oracle : Oracle) :
    ∃ targets, s.withTargets oracle = { s with targets } := by
  unfold withTargets
  split
  · exact ⟨_, rfl⟩
  · exact ⟨_, rfl⟩

/-- Targets are asked for once. -/
lemma Section.withTargets_withTargets (s : Section) :
    (s.withTargets oracle).withTargets oracle = s.withTargets oracle := by
  cases h : s.targets <;> simp [withTargets, h]

namespace Arena

lemma sections_ensureAllTargets :
    (a.ensureAllTargets oracle).sections[i]? = (a.sections[i]?).map (·.withTargets oracle) :=
  List.getElem?_map

/-- The targets of all sections are known. -/
def TargetsKnown (a : Arena) : Prop :=
  ∀ ⦃i : SectionId⦄ ⦃s⦄, a.sections[i]? = some s → s.targets.isSome = true

lemma targetsKnown_ensureAllTargets : (a.ensureAllTargets oracle).TargetsKnown := by
  intro i s hs
  rw [sections_ensureAllTargets] at hs
  obtain ⟨s, _, rfl⟩ := Option.map_eq_some_iff.mp hs
  unfold Section.withTargets
  split
  · rename_i h
    rw [h]
    rfl
  · rfl

/-- Known targets are not asked for again. -/
lemma TargetsKnown.ensureAllTargets (h : a.TargetsKnown) : a.ensureAllTargets oracle = a := by
  have same : (a.ensureAllTargets oracle).sections = a.sections := by
    apply List.ext_getElem?
    intro i
    rw [sections_ensureAllTargets]
    cases hs : a.sections[i]? with
    | none => rfl
    | some s =>
      obtain ⟨targets, ht⟩ := Option.isSome_iff_exists.mp (h hs)
      simp [Section.withTargets, ht]
  exact congrArg (fun sections => { a with sections }) same

end Arena

end Interlock
