/-!
# Walks

A walk in layers starts from a first layer of nodes and goes on with the successors of each layer
that it has not met before. Every layer after the first is as far from the start as its number says,
so the nodes come out by distance. A walk has no more layers than there are nodes to meet, and that
count bounds it.

A walk along a stack looks for one node. It takes the last node that was put on the stack, and puts
the successors of each node there once.
-/

namespace Interlock.Walk

variable {α : Type} [DecidableEq α]

/-- The elements of a list that are not among those seen, each once, in order of first
appearance. -/
def fresh (seen : List α) : List α → List α
  | [] => []
  | a :: rest => if a ∈ seen then fresh seen rest else a :: fresh (a :: seen) rest

/-- The nodes of a layer and of every layer after it, in order of discovery. The number bounds the
count of layers. -/
def layers (next : α → List α) : Nat → (seen layer : List α) → List α
  | 0, _, _ => []
  | _ + 1, _, [] => []
  | n + 1, seen, layer@(_ :: _) =>
    layer ++ layers next n (layer ++ seen) (fresh (layer ++ seen) (layer.flatMap next))

/-- The nodes met by a walk that starts from the given ones, in order of discovery. `bound` is at
least the number of nodes there are to meet. -/
def nodes (next : α → List α) (bound : Nat) (start : List α) : List α :=
  layers next bound [] (fresh [] start)

/-- The target is met by a walk along a stack, whose top comes first. A node that was seen is taken
from the stack and passed over. The number bounds the count of nodes that are taken from the
stack. -/
def seek (next : α → List α) (target : α) : Nat → (seen stack : List α) → Bool
  | 0, _, _ => false
  | _ + 1, _, [] => false
  | n + 1, seen, a :: rest =>
    if a = target then true
    else if a ∈ seen then seek next target n seen rest
    else seek next target n (a :: seen) ((next a).reverse ++ rest)

theorem mem_fresh {a : α} {seen l : List α} : a ∈ fresh seen l ↔ a ∈ l ∧ a ∉ seen := by
  induction l generalizing seen with
  | nil => simp [fresh]
  | cons b rest ih =>
    unfold fresh
    split
    · simp only [ih, List.mem_cons]; grind
    · simp only [List.mem_cons, ih]; grind

theorem nodup_fresh {seen l : List α} : (fresh seen l).Nodup := by
  induction l generalizing seen with
  | nil => simp [fresh]
  | cons b rest ih =>
    unfold fresh
    split
    · exact ih
    · exact List.nodup_cons.mpr ⟨by simp [mem_fresh], ih⟩

end Interlock.Walk
