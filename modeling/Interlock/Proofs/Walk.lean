import Interlock.Walk
import Mathlib.Algebra.BigOperators.Group.Finset.Basic
import Mathlib.Data.Finset.Card
import Mathlib.Logic.Relation

/-!
# What a walk meets

A walk meets the nodes that the successor relation leads to from its start, and no others
(`mem_nodes`). That it meets no others is an induction over its layers (`reaches_of_mem_layers`).
That it meets them all rests on its bound: what was seen and what is met is closed under successors
(`layers_closed`) as long as every layer but the last has a node that was not counted yet.

A walk along a stack answers whether successors lead from the stack to its target (`seek_iff`). What
it has seen and what is on the stack is closed under successors all along, so a walk that runs out
of stack has seen all there is (`seek_complete`). Each node takes its successors to the stack once,
and that bounds it (`pending`).
-/

namespace Interlock.Walk

variable {α : Type} [DecidableEq α] {next : α → List α} {n bound : Nat} {seen layer start : List α}
  {all : Finset α} {a b : α}

/-- Successors lead from the first node to the second, in no steps or more. -/
def Reaches (next : α → List α) : α → α → Prop := Relation.ReflTransGen fun a b => b ∈ next a

/-- The layers have only what the first one leads to. -/
lemma reaches_of_mem_layers (h : b ∈ layers next n seen layer) : ∃ a ∈ layer, Reaches next a b := by
  induction n generalizing seen layer with
  | zero => cases h
  | succ n ih =>
    cases layer with
    | nil => cases h
    | cons x rest =>
      rw [layers, List.mem_append] at h
      rcases h with h | h
      · exact ⟨b, h, .refl⟩
      · obtain ⟨c, hc, hcb⟩ := ih h
        obtain ⟨hc, _⟩ := mem_fresh.mp hc
        obtain ⟨a, ha, hac⟩ := List.mem_flatMap.mp hc
        exact ⟨a, ha, .head hac hcb⟩

/-- A layer of new nodes leaves fewer nodes unseen. -/
lemma card_unseen_lt (new : ∀ a ∈ layer, a ∈ all ∧ a ∉ seen) (hne : layer ≠ []) :
    (all \ (layer ++ seen).toFinset).card < (all \ seen.toFinset).card := by
  obtain ⟨a, ha⟩ := List.exists_mem_of_ne_nil layer hne
  apply Finset.card_lt_card
  rw [Finset.ssubset_iff_of_subset]
  · refine ⟨a, ?_, ?_⟩
    · simpa using new a ha
    · simp [ha]
  · apply Finset.sdiff_subset_sdiff (Finset.Subset.refl _)
    intro b hb
    simpa using Or.inr (List.mem_toFinset.mp hb)

/-- There is no layer of new nodes where all nodes were seen. -/
lemma layer_eq_nil (new : ∀ a ∈ layer, a ∈ all ∧ a ∉ seen)
    (empty : (all \ seen.toFinset).card ≤ 0) :
    layer = [] := by
  by_contra hne
  have less := card_unseen_lt new hne
  omega

/-- Successors of what was seen and of a layer are there too, or come with the next layer. -/
lemma closed_next (closed : ∀ a ∈ seen, ∀ b ∈ next a, b ∈ seen ∨ b ∈ layer) :
    ∀ a ∈ layer ++ seen, ∀ b ∈ next a,
      b ∈ layer ++ seen ∨ b ∈ fresh (layer ++ seen) (layer.flatMap next) := by
  intro a ha b hb
  by_cases old : b ∈ layer ++ seen
  · exact .inl old
  · rcases List.mem_append.mp ha with ha | ha
    · exact .inr (mem_fresh.mpr ⟨List.mem_flatMap.mpr ⟨a, ha, hb⟩, old⟩)
    · rcases closed a ha b hb with hb | hb
      · exact absurd (List.mem_append_right _ hb) old
      · exact absurd (List.mem_append_left _ hb) old

/-- The next layer is new, and inside whatever is closed under successors. -/
lemma new_next (inside : ∀ a ∈ all, ∀ b ∈ next a, b ∈ all) (new : ∀ a ∈ layer, a ∈ all ∧ a ∉ seen) :
    ∀ b ∈ fresh (layer ++ seen) (layer.flatMap next), b ∈ all ∧ b ∉ layer ++ seen := by
  intro b hb
  obtain ⟨hb, fresh⟩ := mem_fresh.mp hb
  obtain ⟨a, ha, hab⟩ := List.mem_flatMap.mp hb
  exact ⟨inside a (new a ha).1 b hab, fresh⟩

/-- What was seen and what the layers have is closed under successors. -/
lemma layers_closed (inside : ∀ a ∈ all, ∀ b ∈ next a, b ∈ all)
    (new : ∀ a ∈ layer, a ∈ all ∧ a ∉ seen)
    (closed : ∀ a ∈ seen, ∀ b ∈ next a, b ∈ seen ∨ b ∈ layer)
    (enough : (all \ seen.toFinset).card ≤ n) :
    (∀ a ∈ layer, a ∈ layers next n seen layer) ∧
      ∀ a, a ∈ seen ∨ a ∈ layers next n seen layer →
        ∀ b ∈ next a, b ∈ seen ∨ b ∈ layers next n seen layer := by
  induction n generalizing seen layer with
  | zero =>
    rw [layer_eq_nil new enough] at closed ⊢
    simpa [layers] using closed
  | succ n ih =>
    cases layer with
    | nil => simpa [layers] using closed
    | cons x rest =>
      have less := card_unseen_lt new (List.cons_ne_nil x rest)
      obtain ⟨_, later⟩ := ih (new_next inside new) (closed_next closed) (by omega)
      rw [layers]
      refine ⟨fun a ha => List.mem_append_left _ ha, ?_⟩
      simpa only [List.mem_append, or_assoc, or_left_comm] using later

/-- The first layer is new, and inside whatever the start is in. -/
lemma new_start (starts : ∀ a ∈ start, a ∈ all) :
    ∀ a ∈ fresh [] start, a ∈ all ∧ a ∉ ([] : List α) :=
  fun a ha => ⟨starts a (mem_fresh.mp ha).1, List.not_mem_nil⟩

/-- A walk meets what successors lead to from its start, if its bound is at least the number of
nodes there are. -/
theorem mem_nodes (inside : ∀ a ∈ all, ∀ b ∈ next a, b ∈ all) (starts : ∀ a ∈ start, a ∈ all)
    (enough : all.card ≤ bound) :
    b ∈ nodes next bound start ↔ ∃ a ∈ start, Reaches next a b := by
  obtain ⟨first, later⟩ := layers_closed (n := bound) inside (new_start starts) (by simp)
    (by simpa using enough)
  constructor
  · intro h
    obtain ⟨a, ha, hab⟩ := reaches_of_mem_layers h
    exact ⟨a, (mem_fresh.mp ha).1, hab⟩
  · rintro ⟨a, ha, hab⟩
    induction hab with
    | refl => exact first a (mem_fresh.mpr ⟨ha, List.not_mem_nil⟩)
    | tail _ hbc ih =>
      rcases later _ (.inr ih) _ hbc with hc | hc
      · cases hc
      · exact hc

/-! ## Along a stack -/

variable {stack : List α} {target : α}

/-- A walk finds the target only if the stack leads there. -/
lemma seek_sound (h : seek next target n seen stack = true) :
    ∃ a ∈ stack, Reaches next a target := by
  induction n generalizing seen stack with
  | zero => cases h
  | succ n ih =>
    cases stack with
    | nil => cases h
    | cons a rest =>
      rw [seek] at h
      split at h
      · rename_i e
        exact ⟨a, List.mem_cons_self, e ▸ .refl⟩
      · split at h
        · obtain ⟨b, hb, hbt⟩ := ih h
          exact ⟨b, List.mem_cons_of_mem a hb, hbt⟩
        · obtain ⟨b, hb, hbt⟩ := ih h
          rcases List.mem_append.mp hb with hb | hb
          · exact ⟨a, List.mem_cons_self, .head (List.mem_reverse.mp hb) hbt⟩
          · exact ⟨b, List.mem_cons_of_mem a hb, hbt⟩

/-- The count of successors that nodes not yet seen may put on the stack. -/
def pending (next : α → List α) (all : Finset α) (seen : List α) : Nat :=
  ∑ a ∈ all \ seen.toFinset, (next a).length

/-- A node that is seen puts its successors on the stack. -/
lemma pending_cons (sources : ∀ a ∉ all, next a = []) (ha : a ∉ seen) :
    pending next all (a :: seen) + (next a).length = pending next all seen := by
  have split : all \ (a :: seen).toFinset = (all \ seen.toFinset).erase a := by
    ext b
    simp only [Finset.mem_sdiff, List.mem_toFinset, List.mem_cons, Finset.mem_erase, not_or]
    tauto
  rw [pending, pending, split]
  by_cases inside : a ∈ all
  · exact Finset.sum_erase_add _ _ (by simp [inside, ha])
  · rw [Finset.erase_eq_of_notMem (by simp [inside]), sources a inside, List.length_nil,
      Nat.add_zero]

omit [DecidableEq α] in
/-- Successors do not lead out of a closed list. -/
lemma not_reaches_of_closed (closed : ∀ a ∈ seen, ∀ b ∈ next a, b ∈ seen) (unmet : target ∉ seen)
    (ha : a ∈ seen) : ¬ Reaches next a target := by
  intro hat
  have inside : ∀ b, Reaches next a b → b ∈ seen := by
    intro b hab
    induction hab with
    | refl => exact ha
    | tail _ hbc ih => exact closed _ ih _ hbc
  exact unmet (inside target hat)

/-- A walk that does not find its target has no way to it, if its bound is large enough. -/
lemma seek_complete (sources : ∀ a ∉ all, next a = [])
    (closed : ∀ a ∈ seen, ∀ b ∈ next a, b ∈ seen ∨ b ∈ stack) (unmet : target ∉ seen)
    (enough : stack.length + pending next all seen ≤ n)
    (h : seek next target n seen stack = false) :
    ∀ a, a ∈ seen ∨ a ∈ stack → ¬ Reaches next a target := by
  induction n generalizing seen stack with
  | zero =>
    obtain rfl : stack = [] := List.eq_nil_of_length_eq_zero (by omega)
    simp only [List.not_mem_nil, or_false] at closed ⊢
    exact fun a ha => not_reaches_of_closed closed unmet ha
  | succ n ih =>
    cases stack with
    | nil =>
      simp only [List.not_mem_nil, or_false] at closed ⊢
      exact fun a ha => not_reaches_of_closed closed unmet ha
    | cons x rest =>
      rw [List.length_cons] at enough
      rw [seek] at h
      split at h
      · cases h
      · rename_i other
        split at h
        · rename_i old
          have closed' : ∀ a ∈ seen, ∀ b ∈ next a, b ∈ seen ∨ b ∈ rest := by
            intro a ha b hb
            rcases closed a ha b hb with hb | hb
            · exact .inl hb
            · rcases List.mem_cons.mp hb with rfl | hb
              · exact .inl old
              · exact .inr hb
          have later := ih closed' unmet (by omega) h
          rintro a (ha | ha)
          · exact later a (.inl ha)
          · rcases List.mem_cons.mp ha with rfl | ha
            · exact later a (.inl old)
            · exact later a (.inr ha)
        · rename_i new
          have count := pending_cons sources new
          have closed' : ∀ a ∈ x :: seen, ∀ b ∈ next a,
              b ∈ x :: seen ∨ b ∈ (next x).reverse ++ rest := by
            intro a ha b hb
            rcases List.mem_cons.mp ha with rfl | ha
            · exact .inr (List.mem_append_left rest (List.mem_reverse.mpr hb))
            · rcases closed a ha b hb with hb | hb
              · exact .inl (List.mem_cons_of_mem x hb)
              · rcases List.mem_cons.mp hb with rfl | hb
                · exact .inl List.mem_cons_self
                · exact .inr (List.mem_append_right _ hb)
          have unmet' : target ∉ x :: seen := by
            rw [List.mem_cons, not_or]
            exact ⟨fun e => other e.symm, unmet⟩
          have later := ih closed' unmet'
            (by rw [List.length_append, List.length_reverse]; omega) h
          rintro a (ha | ha)
          · exact later a (.inl (List.mem_cons_of_mem x ha))
          · rcases List.mem_cons.mp ha with rfl | ha
            · exact later a (.inl List.mem_cons_self)
            · exact later a (.inr (List.mem_append_right _ ha))

/-- A walk along a stack finds out whether successors lead from the stack to its target, if its
bound is at least what may come to be on the stack. -/
theorem seek_iff (sources : ∀ a ∉ all, next a = [])
    (enough : stack.length + ∑ a ∈ all, (next a).length ≤ n) :
    seek next target n [] stack = true ↔ ∃ a ∈ stack, Reaches next a target := by
  constructor
  · exact seek_sound
  · rintro ⟨a, ha, hat⟩
    by_contra missed
    have bound : stack.length + pending next all [] ≤ n := by
      rw [pending, List.toFinset_nil, Finset.sdiff_empty]
      exact enough
    exact seek_complete sources (by simp) List.not_mem_nil bound (Bool.eq_false_iff.mpr missed) a
      (.inr ha) hat

end Interlock.Walk
