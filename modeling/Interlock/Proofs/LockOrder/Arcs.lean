import Interlock.LockOrder.Search
import Mathlib.Tactic.Common

/-!
# Arcs of a lock order

What `LockOrder.addNode` and `LockOrder.addArc` do to the labelled arcs of an order, and what the
listings of an order (`labels`, `successors`, `openSuccessors`) have as members. Everything else on
orders speaks of `LockOrder.Labelled` alone.

`Arena.Excludes` says that two sections hold a common static lock, so that they never run at the
same time. It is symmetric (`Excludes.symm`), which is what lets the later of two opposed arcs judge
the earlier one.
-/

namespace Interlock

lemma Arena.shareStatic_iff {xs ys : List LockNum} :
    Arena.shareStatic xs ys = true ↔ ∃ n, n.isStatic = true ∧ n ∈ xs ∧ n ∈ ys := by
  simp only [Arena.shareStatic, List.any_eq_true, Bool.and_eq_true, List.contains_iff_mem]
  constructor
  · rintro ⟨n, hx, hs, hy⟩
    exact ⟨n, hs, hx, hy⟩
  · rintro ⟨n, hs, hx, hy⟩
    exact ⟨n, hx, hs, hy⟩

/-- A section excludes another that holds one of its static locks. -/
def Arena.Excludes (a : Arena) (s t : SectionId) : Prop :=
  Arena.shareStatic (a.held s) (a.held t) = true

instance (a : Arena) (s t : SectionId) : Decidable (a.Excludes s t) :=
  inferInstanceAs (Decidable (_ = true))

/-- Two sections exclude each other by a static lock that both hold. -/
lemma Arena.excludes_iff {a : Arena} {s t : SectionId} :
    a.Excludes s t ↔ ∃ n, n.isStatic = true ∧ n ∈ a.held s ∧ n ∈ a.held t :=
  Arena.shareStatic_iff

lemma Arena.Excludes.symm {a : Arena} {s t : SectionId} (h : a.Excludes s t) : a.Excludes t s := by
  obtain ⟨n, hn, hs, ht⟩ := Arena.excludes_iff.mp h
  exact Arena.excludes_iff.mpr ⟨n, hn, ht, hs⟩

namespace LockOrder

variable {o : LockOrder} {a b x y : LockNum} {s t : SectionId}

@[simp] lemma not_labelled_empty : ¬ empty.Labelled x y s := SortedSet.not_mem_empty

@[simp] lemma labelled_addNode : (o.addNode a).Labelled x y s ↔ o.Labelled x y s := Iff.rfl

/-- A new arc is the only one that is added. -/
@[simp] lemma labelled_addArc :
    (o.addArc a b t).Labelled x y s ↔ (x = a ∧ y = b ∧ s = t) ∨ o.Labelled x y s := by
  simp only [Labelled, addArc, SortedSet.mem_insert, Prod.mk.injEq]

@[simp] lemma labelled_addNodes {l : List LockNum} :
    (l.foldl addNode o).Labelled x y s ↔ o.Labelled x y s := by
  induction l generalizing o with
  | nil => rfl
  | cons n rest ih =>
    rw [List.foldl_cons, ih]
    exact labelled_addNode

/-- Arcs from one lock to several are the only ones that are added. -/
lemma labelled_addArcs {l : List LockNum} :
    (l.foldl (fun o n => o.addArc a n t) o).Labelled x y s ↔
      (x = a ∧ y ∈ l ∧ s = t) ∨ o.Labelled x y s := by
  induction l generalizing o with
  | nil => simp
  | cons n rest ih =>
    rw [List.foldl_cons, ih, labelled_addArc, List.mem_cons]
    tauto

lemma mem_labels : s ∈ o.labels x y ↔ o.Labelled x y s := by
  simp only [labels, Labelled, List.mem_filterMap, SortedSet.mem_toList]
  constructor
  · rintro ⟨⟨a, b, u⟩, hmem, h⟩
    split at h
    · rename_i e
      obtain ⟨rfl, rfl⟩ := e
      cases h
      exact hmem
    · cases h
  · intro h
    exact ⟨(x, y, s), h, by simp⟩

lemma mem_successors : y ∈ o.successors x ↔ ∃ s, o.Labelled x y s := by
  simp only [successors, Labelled, List.mem_eraseDups, List.mem_filterMap, SortedSet.mem_toList]
  constructor
  · rintro ⟨⟨a, b, u⟩, hmem, h⟩
    split at h
    · rename_i e
      subst e
      cases h
      exact ⟨u, hmem⟩
    · cases h
  · rintro ⟨u, h⟩
    exact ⟨(x, y, u), h, by simp⟩

/-- An open arc back has a label that the section at hand does not exclude. -/
lemma mem_openSuccessors {arena : Arena} :
    y ∈ o.openSuccessors arena.held t x ↔ ∃ s, o.Labelled x y s ∧ ¬ arena.Excludes t s := by
  simp only [openSuccessors, List.mem_filter, mem_successors, List.any_eq_true, mem_labels,
    Arena.Excludes, Bool.not_eq_true, Bool.not_eq_true']
  constructor
  · rintro ⟨_, s, hs, hx⟩
    exact ⟨s, hs, hx⟩
  · rintro ⟨s, hs, hx⟩
    exact ⟨⟨s, hs⟩, s, hs, hx⟩

end LockOrder

end Interlock
