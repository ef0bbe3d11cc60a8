import Interlock.Proofs.Arena
import Interlock.Proofs.LockOrder.Agreement
import Interlock.Proofs.LockOrder.Arcs
import Interlock.Proofs.LockOrder.Growth

/-!
# What a section sees of an order

A section sees an order through the sections that it observes (`Arena.Observes`): not through those
that exclude it and, if it holds a static lock, not through sections of no group. Where it is found
out what the section sees, this is what is found (`Arena.visibleArcs_eq_ok`), and the plan for the
section is made from it (`Arena.planOf`).
-/

namespace Interlock

lemma LockOrder.mem_arcsOf {o : LockOrder} {x y : LockNum} {s : SectionId} :
    (x, y) ∈ o.arcsOf s ↔ o.Labelled x y s := by
  simp only [arcsOf, Labelled, List.mem_filterMap, SortedSet.mem_toList]
  constructor
  · rintro ⟨⟨a, b, t⟩, hmem, h⟩
    split at h
    · rename_i e
      subst e
      cases h
      exact hmem
    · cases h
  · intro h
    exact ⟨(x, y, s), h, by simp⟩

namespace Arena

variable {a : Arena} {o : LockOrder} {s t : SectionId} {x y : LockNum}

/-- The arcs of the second section are shown to the first: the two are the same, or do not exclude
each other, where a section with a static lock is not shown the arcs of a section of no group. -/
def Observes (a : Arena) (t s : SectionId) : Prop :=
  s = t ∨ (∀ n ∈ a.held t, n.isStatic = false) ∨ (s ∈ a.groupedSections ∧ ¬ a.Excludes t s)

instance : Decidable (a.Observes t s) := inferInstanceAs (Decidable (_ ∨ _ ∨ _))

/-- Some section whose arcs are shown to the section justifies the arc. -/
def Visible (a : Arena) (o : LockOrder) (t : SectionId) (x y : LockNum) : Prop :=
  ∃ s < a.sections.length, a.Observes t s ∧ o.Labelled x y s

/-- An arc that a section sees between two different locks that it holds. -/
def OwnArc (a : Arena) (o : LockOrder) (t : SectionId) (x y : LockNum) : Prop :=
  x ≠ y ∧ x ∈ a.held t ∧ y ∈ a.held t ∧ a.Visible o t x y

/-- The arcs that a section sees. -/
def visibleTo (a : Arena) (o : LockOrder) (t : SectionId) : List (LockNum × LockNum) :=
  Walk.fresh [] ((a.sectionIds.filter fun s => a.Observes t s).flatMap o.arcsOf)

lemma mem_visibleTo : (x, y) ∈ a.visibleTo o t ↔ a.Visible o t x y := by
  simp only [visibleTo, Walk.mem_fresh, List.mem_flatMap, List.mem_filter, decide_eq_true_eq,
    LockOrder.mem_arcsOf, List.not_mem_nil, not_false_eq_true, and_true, sectionIds,
    List.mem_range, Visible, and_assoc]

/-- What is hidden from another section is what this does not observe. -/
lemma hidden_eq_ok {hides : Bool} (hne : s ≠ t)
    (h : a.hidden ((a.held t).filter LockNum.isStatic) s = .ok hides) :
    hides = !decide (a.Observes t s) := by
  unfold hidden at h
  split at h
  · rename_i empty
    cases h
    have dynamic : ∀ n ∈ a.held t, n.isStatic = false := by
      simpa [List.isEmpty_iff] using empty
    rw [decide_eq_true (.inr (.inl dynamic))]
    rfl
  · rename_i nonempty
    have static : ¬ ∀ n ∈ a.held t, n.isStatic = false := by
      simpa [List.isEmpty_iff] using nonempty
    have observes : a.Observes t s ↔ s ∈ a.groupedSections ∧ ¬ a.Excludes t s := by
      rw [Observes, or_iff_right hne, or_iff_right static]
    obtain ⟨u, hu, h⟩ := bind_eq_ok.mp h
    rw [section?_eq_ok] at hu
    cases grouped : u.isGrouped with
    | false =>
      rw [grouped] at h
      cases h
      have unseen : ¬ a.Observes t s := by
        rw [observes, mem_groupedSections]
        rintro ⟨⟨u', hu', hg⟩, _⟩
        rw [hu] at hu'
        cases hu'
        rw [grouped] at hg
        cases hg
      rw [decide_eq_false unseen]
      rfl
    | true =>
      rw [grouped] at h
      obtain ⟨theirs, ht, h⟩ := bind_eq_ok.mp h
      cases h
      have hg : s ∈ a.groupedSections := mem_groupedSections.mpr ⟨u, hu, grouped⟩
      rw [List.any_filter, ← held_of_lockNums ht, Bool.eq_iff_iff, Bool.not_eq_true',
        decide_eq_false_iff_not, observes, and_iff_right hg, not_not]
      rfl

/-- A section sees the arcs of those that it observes. -/
lemma visibleArcs_eq_ok {arcs : List (LockNum × LockNum)} (h : a.visibleArcs o t = .ok arcs) :
    arcs = a.visibleTo o t := by
  obtain ⟨locks, hl, h⟩ := bind_eq_ok.mp h
  obtain ⟨seen, hf, h⟩ := bind_eq_ok.mp h
  cases h
  rw [← held_of_lockNums hl] at hf
  obtain ⟨shows, answers, rfl⟩ := filterM_eq_ok.mp hf
  have shown : ∀ s ∈ a.sectionIds, shows s = decide (a.Observes t s) := by
    intro s hs
    have h := answers s hs
    split at h
    · rename_i same
      rw [decide_eq_true (.inl same)]
      exact (Except.ok.inj h).symm
    · rename_i hne
      obtain ⟨hides, hh, h⟩ := bind_eq_ok.mp h
      rw [← Except.ok.inj h, hidden_eq_ok hne hh, Bool.not_not]
  rw [visibleTo, List.filter_congr shown]

/-- The plan for a section. -/
def planOf (a : Arena) (o : LockOrder) (t : SectionId) : LockPlan where
  locks := a.held t
  visible := a.visibleTo o t

lemma view_planOf : (a.planOf o t).View = a.OwnArc o t := by
  funext x y
  simp only [LockPlan.View, LockPlan.arc, planOf, OwnArc, Bool.and_eq_true, decide_eq_true_eq,
    List.contains_iff_mem, mem_visibleTo, eq_iff_iff]
  tauto

end Arena

end Interlock
