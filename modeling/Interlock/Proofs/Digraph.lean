import Interlock.Digraph
import Interlock.Proofs.Walk

/-!
# Paths

`Digraph.Path` is the transitive closure of the arcs (`path_iff_transGen`), and `Digraph.seeks`
decides it by a walk along a stack (`seeks_iff`). The walk is long enough, since each node takes its
successors to the stack once, and these are no more than the arcs.
-/

namespace Interlock.Digraph

variable {α : Type} [Ranked α] {g : Digraph α} {a b x y : α}

@[simp] lemma mem_arcs_addArc :
    (x, y) ∈ (g.addArc a b).arcs ↔ (x = a ∧ y = b) ∨ (x, y) ∈ g.arcs := by
  rw [addArc, SortedSet.mem_insert, Prod.mk.injEq]

@[simp] lemma not_mem_arcs_empty : (x, y) ∉ (empty : Digraph α).arcs := SortedSet.not_mem_empty

lemma arcs_addNodes {l : List α} : (l.foldl addNode g).arcs = g.arcs := by
  induction l generalizing g with
  | nil => rfl
  | cons a rest ih => rw [List.foldl_cons, ih, addNode]

lemma mem_nodes_addArc : x ∈ (g.addArc a b).nodes ↔ x = a ∨ x = b ∨ x ∈ g.nodes := by
  rw [addArc, SortedSet.mem_insert, SortedSet.mem_insert]
  exact or_left_comm

lemma mem_nodes_addNodes {l : List α} : x ∈ (l.foldl addNode g).nodes ↔ x ∈ g.nodes ∨ x ∈ l := by
  induction l generalizing g with
  | nil => simp
  | cons a rest ih =>
    rw [List.foldl_cons, ih, addNode, SortedSet.mem_insert, List.mem_cons]
    exact or_assoc.trans or_left_comm

lemma path_iff_transGen : g.Path a b ↔ Relation.TransGen (fun x y => (x, y) ∈ g.arcs) a b := by
  constructor
  · intro h
    induction h with
    | arc h => exact .single h
    | cons h _ ih => exact .head h ih
  · intro h
    induction h using Relation.TransGen.head_induction_on with
    | single h => exact .arc h
    | head h _ ih => exact .cons h ih

variable [DecidableEq α]

/-- The second parts of the pairs with a given first part. -/
lemma mem_seconds {pairs : SortedSet (α × α)} :
    b ∈ (pairs.toList.filterMap fun (c, d) => if c = a then some d else none) ↔ (a, b) ∈ pairs := by
  simp only [List.mem_filterMap, SortedSet.mem_toList]
  constructor
  · rintro ⟨⟨c, d⟩, hmem, h⟩
    split at h
    · rename_i e
      subst e
      cases h
      exact hmem
    · cases h
  · intro h
    exact ⟨(a, b), h, by simp⟩

/-- The first parts of the pairs with a given second part. -/
lemma mem_firsts {pairs : SortedSet (α × α)} :
    a ∈ (pairs.toList.filterMap fun (c, d) => if d = b then some c else none) ↔ (a, b) ∈ pairs := by
  simp only [List.mem_filterMap, SortedSet.mem_toList]
  constructor
  · rintro ⟨⟨c, d⟩, hmem, h⟩
    split at h
    · rename_i e
      subst e
      cases h
      exact hmem
    · cases h
  · intro h
    exact ⟨(a, b), h, by simp⟩

lemma mem_successors : b ∈ g.successors a ↔ (a, b) ∈ g.arcs := mem_seconds

/-- The ends of the arcs that leave a node are as many as the arcs. -/
lemma length_successors : (g.successors a).length = (g.arcs.toList.map (·.1)).count a := by
  rw [successors, List.length_filterMap_eq_countP, List.count, List.countP_map]
  apply List.countP_congr
  rintro ⟨b, c⟩ _
  by_cases e : b = a <;> simp [e]

/-- A walk along a stack finds out whether a path leads to a node. -/
theorem seeks_iff : g.seeks a b = true ↔ g.Path a b := by
  let starts : Finset α := (g.arcs.toList.map (·.1)).toFinset
  have sources : ∀ x ∉ starts, g.successors x = [] := by
    intro x hx
    refine List.eq_nil_iff_forall_not_mem.mpr fun y hy => hx ?_
    exact List.mem_toFinset.mpr (List.mem_map_of_mem (f := (·.1)) (mem_successors.mp hy))
  have count : ∑ x ∈ starts, (g.successors x).length = g.arcs.size := by
    simp only [length_successors]
    rw [List.sum_toFinset_count_eq_length, List.length_map]
    rfl
  have enough : (g.successors a).reverse.length + ∑ x ∈ starts, (g.successors x).length ≤
      g.arcs.size + (g.successors a).length := by
    rw [count, List.length_reverse, Nat.add_comm]
  rw [seeks, Walk.seek_iff sources enough, path_iff_transGen]
  simp only [List.mem_reverse, mem_successors, Walk.Reaches]
  exact (Relation.TransGen.head'_iff (r := fun x y => (x, y) ∈ g.arcs)).symm

end Interlock.Digraph
