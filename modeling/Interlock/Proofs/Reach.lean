import Interlock.Reach
import Interlock.Proofs.Digraph

/-!
# Reachability while a graph grows

Both ways to keep reachability mean the same. At first nothing is reached (`reaches_empty`), and an
arc that is taken on adds the pairs that have a path through it (`reaches_insert`). So after any
arcs the answer is whether these arcs lead from the one node to the other (`Reach.Exact`).
-/

namespace Interlock

open Relation (TransGen ReflTransGen)

variable {α : Type}

/-- The relation with one more pair. -/
def WithArc (R : α → α → Prop) (a b x y : α) : Prop := (x = a ∧ y = b) ∨ R x y

/-- A path among more arcs is an old one, or goes through the new arc. -/
lemma transGen_withArc {R : α → α → Prop} {a b x y : α} :
    TransGen (WithArc R a b) x y ↔
      TransGen R x y ∨ ((x = a ∨ TransGen R x a) ∧ (y = b ∨ TransGen R b y)) := by
  constructor
  · intro h
    induction h with
    | single h =>
      rcases h with ⟨rfl, rfl⟩ | h
      · exact .inr ⟨.inl rfl, .inl rfl⟩
      · exact .inl (.single h)
    | tail _ h ih =>
      rcases h with ⟨rfl, rfl⟩ | h
      · refine .inr ⟨?_, .inl rfl⟩
        rcases ih with old | ⟨first, _⟩
        · exact .inr old
        · exact first
      · rcases ih with old | ⟨first, rfl | last⟩
        · exact .inl (old.tail h)
        · exact .inr ⟨first, .inr (.single h)⟩
        · exact .inr ⟨first, .inr (last.tail h)⟩
  · have old : ∀ {u v}, TransGen R u v → TransGen (WithArc R a b) u v := fun h =>
      h.lift id fun _ _ => .inr
    have new : TransGen (WithArc R a b) a b := .single (.inl ⟨rfl, rfl⟩)
    rintro (h | ⟨rfl | first, rfl | last⟩)
    · exact old h
    · exact new
    · exact new.trans (old last)
    · exact (old first).trans new
    · exact (old first).trans (new.trans (old last))

variable [Ranked α] [DecidableEq α] {a b x y : α}

/-- The pairs of a closure with one more arc. -/
lemma Closure.reaches_insert {c : Closure α} :
    (c.insert a b).reaches x y = true ↔
      c.reaches x y = true ∨
        ((x = a ∨ c.reaches x a = true) ∧ (y = b ∨ c.reaches b y = true)) := by
  have last : y ∈ c.reachableFrom b ↔ (b, y) ∈ c.pairs := Digraph.mem_seconds
  have first : x ∈ c.sourcesOf a ↔ (x, a) ∈ c.pairs := Digraph.mem_firsts
  have gained : (x, y) ∈ (c.insert a b).pairs ↔
      (x, y) ∈ c.pairs ∨ ((x = a ∨ x ∈ c.sourcesOf a) ∧ (y = b ∨ y ∈ c.reachableFrom b)) := by
    simp only [insert, SortedSet.mem_insertAll, List.mem_flatMap, List.mem_map, List.mem_cons,
      Prod.mk.injEq]
    constructor
    · rintro (h | ⟨u, hu, v, hv, rfl, rfl⟩)
      · exact .inl h
      · exact .inr ⟨hu, hv⟩
    · rintro (h | ⟨hx, hy⟩)
      · exact .inl h
      · exact .inr ⟨x, hx, y, hy, rfl, rfl⟩
  simp only [reaches, SortedSet.contains_eq_true]
  rw [gained, last, first]

namespace Reach

variable {r : Reach α} {R : α → α → Prop}

/-- The answers are the paths among some arcs. -/
def Exact (r : Reach α) (R : α → α → Prop) : Prop := ∀ x y, r.reaches x y = true ↔ TransGen R x y

lemma reaches_empty {s : Strategy} : Reach.reaches x y (empty s : Reach α) = false := by
  rw [Bool.eq_false_iff]
  intro h
  cases s with
  | successorExpansion =>
    have path : Digraph.Path (Digraph.empty : Digraph α) x y := Digraph.seeks_iff.mp h
    cases path with
    | arc h => exact Digraph.not_mem_arcs_empty h
    | cons h _ => exact Digraph.not_mem_arcs_empty h
  | transitiveClosure =>
    have pair : (x, y) ∈ (SortedSet.empty : SortedSet (α × α)) := SortedSet.contains_eq_true.mp h
    exact SortedSet.not_mem_empty pair

/-- What is reached with one more arc, whichever way reachability is kept. -/
theorem reaches_insert :
    (r.insert a b).reaches x y = true ↔
      r.reaches x y = true ∨
        ((x = a ∨ r.reaches x a = true) ∧ (y = b ∨ r.reaches b y = true)) := by
  cases r with
  | expansion g =>
    have arcs : (fun x y => (x, y) ∈ (g.addArc a b).arcs) =
        WithArc (fun x y => (x, y) ∈ g.arcs) a b := by
      funext x y
      exact propext Digraph.mem_arcs_addArc
    simp only [reaches, insert, Digraph.seeks_iff, Digraph.path_iff_transGen]
    rw [arcs, transGen_withArc]
  | closure c => exact Closure.reaches_insert

/-- Before any arc there are no paths. -/
lemma exact_empty {s : Strategy} : (empty s : Reach α).Exact fun _ _ => False := by
  intro x y
  rw [reaches_empty]
  constructor
  · intro h
    cases h
  · intro h
    obtain ⟨_, h, _⟩ := TransGen.head'_iff.mp h
    exact h.elim

/-- The answers stay exact. -/
lemma Exact.insert (h : r.Exact R) : (r.insert a b).Exact (WithArc R a b) := by
  intro x y
  rw [reaches_insert, transGen_withArc, h x y, h x a, h b y]

end Reach

end Interlock
