import Interlock.Proofs.Walk

/-!
# Walks along a queue

A walk may be taken one node at a time: the first node that waits is taken from a queue, and its
successors that were not seen come to wait at the end (`Queue.pull?`). No more of the graph is
looked at than the nodes that were pulled need. Pulling comes to an end, and yields the nodes of a
walk in layers, in their order (`yields_nodes`): the queue holds a layer and what its nodes have
brought of the next one (`yields_layer`).
-/

namespace Interlock.Walk

variable {α : Type} [DecidableEq α] {next : α → List α} {n bound : Nat} {a b : α}
  {seen known layer waiting start l : List α} {all : Finset α}

/-- The nodes that wait to be taken, the first of them first, and those that were seen. -/
structure Queue (α : Type) where
  waiting : List α := []
  seen : List α := []

namespace Queue

/-- Lets a node wait at the end, unless it was seen. -/
def push (q : Queue α) (a : α) : Queue α :=
  if a ∈ q.seen then q else { waiting := q.waiting ++ [a], seen := a :: q.seen }

/-- The queue before anything was taken from it. -/
def ofList (l : List α) : Queue α := l.foldl push {}

/-- Takes the first node, and lets its successors wait. -/
def pull? (next : α → List α) (q : Queue α) : Option (α × Queue α) :=
  match q.waiting with
  | [] => none
  | a :: rest => some (a, (next a).foldl push { q with waiting := rest })

/-- Pulling yields the nodes of the list, one by one, and then no more. -/
inductive Yields (next : α → List α) : Queue α → List α → Prop
  | done {q} : q.pull? next = none → Yields next q []
  | pull {q q' a l} : q.pull? next = some (a, q') → Yields next q' l → Yields next q (a :: l)

/-- What waits already keeps its place before the nodes that are pushed. -/
lemma foldl_push : l.foldl push ⟨waiting, seen⟩ =
    ⟨waiting ++ fresh seen l, (fresh seen l).reverse ++ seen⟩ := by
  induction l generalizing waiting seen with
  | nil => simp [fresh]
  | cons a rest ih =>
    rw [List.foldl_cons, push, fresh]
    split
    · rw [ih]
    · rw [ih]
      simp

/-- The nodes of a layer are pulled in order, and their successors wait after it. -/
lemma yields_layer (h : Yields next ((layer.flatMap next).foldl push ⟨waiting, seen⟩) l) :
    Yields next ⟨layer ++ waiting, seen⟩ (layer ++ l) := by
  induction layer generalizing waiting seen with
  | nil => exact h
  | cons a rest ih =>
    have first : pull? next ⟨a :: (rest ++ waiting), seen⟩ =
        some (a, ⟨rest ++ (waiting ++ fresh seen (next a)),
          (fresh seen (next a)).reverse ++ seen⟩) := by
      rw [← List.append_assoc, ← foldl_push]
      rfl
    refine .pull first (ih ?_)
    rw [← foldl_push, ← List.foldl_append, ← List.flatMap_cons]
    exact h

end Queue

/-- What is fresh depends only on which nodes were seen. -/
lemma fresh_congr (same : ∀ a, a ∈ known ↔ a ∈ seen) : fresh known l = fresh seen l := by
  induction l generalizing known seen with
  | nil => rfl
  | cons a rest ih =>
    have more : ∀ b, b ∈ a :: known ↔ b ∈ a :: seen := by
      intro b
      rw [List.mem_cons, List.mem_cons, same]
    rw [fresh, fresh, ih same, ih more]
    simp only [same]

/-- Pulling from a queue that holds a layer yields this layer and those after it. -/
lemma yields_layers (inside : ∀ a ∈ all, ∀ b ∈ next a, b ∈ all)
    (new : ∀ a ∈ layer, a ∈ all ∧ a ∉ seen)
    (enough : (all \ seen.toFinset).card ≤ n) (same : ∀ a, a ∈ known ↔ a ∈ layer ++ seen) :
    Queue.Yields next ⟨layer, known⟩ (layers next n seen layer) := by
  induction n generalizing known seen layer with
  | zero =>
    rw [layer_eq_nil new enough]
    exact .done rfl
  | succ n ih =>
    cases layer with
    | nil => exact .done rfl
    | cons x rest =>
      have less := card_unseen_lt new (List.cons_ne_nil x rest)
      have waits : Queue.Yields next (((x :: rest).flatMap next).foldl Queue.push ⟨[], known⟩)
          (layers next n ((x :: rest) ++ seen)
            (fresh ((x :: rest) ++ seen) ((x :: rest).flatMap next))) := by
        rw [Queue.foldl_push, List.nil_append, fresh_congr same]
        refine ih (new_next inside new) (by omega) fun a => ?_
        rw [List.mem_append, List.mem_append, List.mem_reverse, same]
      have layer := Queue.yields_layer waits
      rw [List.append_nil] at layer
      exact layer

/-- Pulling from the start yields the nodes of a walk, and comes to an end, if the bound of the walk
is at least the number of nodes there are. -/
theorem yields_nodes (inside : ∀ a ∈ all, ∀ b ∈ next a, b ∈ all) (starts : ∀ a ∈ start, a ∈ all)
    (enough : all.card ≤ bound) :
    Queue.Yields next (Queue.ofList start) (nodes next bound start) := by
  rw [Queue.ofList, Queue.foldl_push, List.nil_append]
  refine yields_layers inside (new_start starts) (by simpa using enough) fun a => ?_
  rw [List.append_nil, List.append_nil, List.mem_reverse]

end Interlock.Walk
