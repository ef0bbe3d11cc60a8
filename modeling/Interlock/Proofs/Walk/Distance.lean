import Interlock.Proofs.Walk

/-!
# The order of a walk

A walk in layers meets each node once (`nodup_nodes`), and nearest nodes first (`nodes_nearest`).
Before each layer the nodes that are nearer have all been seen, and the layer has those at its own
distance that were not (`Front`). The next layer is again such a front (`Front.advance`), so
whatever comes in a layer or after it is at least as far as the nodes of the layer.
-/

namespace Interlock.Walk

/-- Successors lead from the start to the node in the given number of steps. -/
inductive Steps {α : Type} (next : α → List α) (start : List α) : Nat → α → Prop
  | start {a} : a ∈ start → Steps next start 0 a
  | step {d a b} : Steps next start d a → b ∈ next a → Steps next start (d + 1) b

variable {α : Type} {next : α → List α} {n d bound : Nat} {seen layer start : List α} {a b : α}

/-- A node is reached exactly if some number of steps leads there. -/
lemma exists_steps : (∃ d, Steps next start d b) ↔ ∃ a ∈ start, Reaches next a b := by
  constructor
  · rintro ⟨d, hd⟩
    induction hd with
    | @start a ha => exact ⟨a, ha, .refl⟩
    | step _ hbc ih =>
      obtain ⟨a, ha, hab⟩ := ih
      exact ⟨a, ha, hab.tail hbc⟩
  · rintro ⟨a, ha, hab⟩
    induction hab with
    | refl => exact ⟨0, .start ha⟩
    | tail _ hbc ih =>
      obtain ⟨d, hd⟩ := ih
      exact ⟨d + 1, .step hd hbc⟩

/-- The first node is no farther from the start than the second. -/
def Nearer (next : α → List α) (start : List α) (a b : α) : Prop :=
  ∀ k, Steps next start k b → ∃ j ≤ k, Steps next start j a

/-- The nodes that are nearer than the distance were seen, and those at the distance that were not
are in the layer. -/
structure Front (next : α → List α) (start : List α) (d : Nat) (seen layer : List α) : Prop where
  at_distance : ∀ a ∈ layer, Steps next start d a
  apart : ∀ a ∈ layer, a ∉ seen
  nearer : ∀ k < d, ∀ b, Steps next start k b → b ∈ seen
  here : ∀ b, Steps next start d b → b ∈ seen ∨ b ∈ layer
  /-- Successors of what was seen were seen, or are in the layer. -/
  closed : ∀ a ∈ seen, ∀ b ∈ next a, b ∈ seen ∨ b ∈ layer

/-- The nodes of the layer are no farther than any node that was not seen. -/
lemma Front.nearest (h : Front next start d seen layer) (ha : a ∈ layer) (new : b ∉ seen) :
    Nearer next start a b := by
  intro k hk
  refine ⟨d, Nat.not_lt.mp fun less => ?_, h.at_distance a ha⟩
  exact new (h.nearer k less b hk)

variable [DecidableEq α]

/-- The next layer is the front at the next distance. -/
lemma Front.advance (h : Front next start d seen layer) :
    Front next start (d + 1) (layer ++ seen) (fresh (layer ++ seen) (layer.flatMap next)) := by
  have closed := closed_next h.closed
  have met : ∀ b, Steps next start d b → b ∈ layer ++ seen :=
    fun b hb => List.mem_append.mpr (h.here b hb).symm
  constructor
  case at_distance =>
    intro b hb
    obtain ⟨a, ha, hab⟩ := List.mem_flatMap.mp (mem_fresh.mp hb).1
    exact .step (h.at_distance a ha) hab
  case apart => exact fun b hb => (mem_fresh.mp hb).2
  case nearer =>
    intro k less b hb
    rcases Nat.lt_succ_iff_lt_or_eq.mp less with less | rfl
    · exact List.mem_append_right layer (h.nearer k less b hb)
    · exact met b hb
  case here =>
    intro b hb
    cases hb with
    | step ha hab => exact closed _ (met _ ha) b hab
  case closed => exact closed

/-- The layers have nothing that was seen. -/
lemma not_mem_of_mem_layers (apart : ∀ a ∈ layer, a ∉ seen) (h : b ∈ layers next n seen layer) :
    b ∉ seen := by
  induction n generalizing seen layer with
  | zero => cases h
  | succ n ih =>
    cases layer with
    | nil => cases h
    | cons x rest =>
      rw [layers, List.mem_append] at h
      rcases h with h | h
      · exact apart b h
      · have later := ih (fun a ha => (mem_fresh.mp ha).2) h
        exact fun old => later (List.mem_append_right _ old)

/-- The layers have each node once. -/
lemma nodup_layers (once : layer.Nodup) (apart : ∀ a ∈ layer, a ∉ seen) :
    (layers next n seen layer).Nodup := by
  induction n generalizing seen layer with
  | zero => exact List.nodup_nil
  | succ n ih =>
    cases layer with
    | nil => exact List.nodup_nil
    | cons x rest =>
      rw [layers, List.nodup_append']
      refine ⟨once, ih nodup_fresh fun a ha => (mem_fresh.mp ha).2, ?_⟩
      intro a ha later
      exact not_mem_of_mem_layers (fun b hb => (mem_fresh.mp hb).2) later
        (List.mem_append_left _ ha)

/-- The layers from a front on have nearer nodes first. -/
lemma Front.layers_nearest (h : Front next start d seen layer) :
    (layers next n seen layer).Pairwise (Nearer next start) := by
  induction n generalizing d seen layer with
  | zero => exact .nil
  | succ n ih =>
    cases layer with
    | nil => exact .nil
    | cons x rest =>
      rw [layers, List.pairwise_append]
      refine ⟨?_, ih h.advance, ?_⟩
      · exact List.pairwise_of_forall_mem_list fun a ha b hb => h.nearest ha (h.apart b hb)
      · intro a ha b later
        have new := not_mem_of_mem_layers h.advance.apart later
        exact h.nearest ha fun old => new (List.mem_append_right _ old)

/-- The start is the front at distance zero. -/
lemma front_start : Front next start 0 [] (fresh [] start) := by
  constructor
  case at_distance => exact fun a ha => .start (mem_fresh.mp ha).1
  case apart => exact fun a ha => (mem_fresh.mp ha).2
  case nearer => exact nofun
  case here =>
    intro b hb
    cases hb with
    | start hb => exact .inr (mem_fresh.mpr ⟨hb, List.not_mem_nil⟩)
  case closed => exact nofun

/-- A walk meets each node once. -/
theorem nodup_nodes : (nodes next bound start).Nodup :=
  nodup_layers nodup_fresh fun _ _ => List.not_mem_nil

/-- A walk meets the nearest nodes first. -/
theorem nodes_nearest : (nodes next bound start).Pairwise (Nearer next start) :=
  front_start.layers_nearest

end Interlock.Walk
