import Interlock.Proofs.Checked.Reorder
import Interlock.Proofs.LockOrder.Ring
import Interlock.Proofs.LockOrder.Topological

/-!
# Reordering sorts

A reordering of a valid arena, by any order of locks, goes through with all its checks and sorts
every lockset by the arcs that its section sees among its own locks (`Arena.OwnArc`). This is put
together from what a reordering makes of the arena (`Arena.reorder_section`) and from what a plan
makes of a lockset (`LockPlan.acquired_lt`, `LockPlan.acquired_least`): `Arena.reorder_arranges`.
-/

namespace Interlock.Arena

open Relation (TransGen)

variable {a b : Arena} {o : LockOrder} {t : SectionId} {u : Section} {l : List LockNum}

/-- Locksets in another order show the same arcs. -/
lemma Shuffled.ownArc (h : Shuffled a b) : b.OwnArc o t = a.OwnArc o t := by
  funext x y
  simp only [OwnArc, Visible, h.mem_held, h.observes, h.length_sections]

lemma Shuffled.held_perm (h : Shuffled a b) : (b.held t).Perm (a.held t) := by
  obtain ⟨keys, hk, perm⟩ := h.sections t
  unfold held
  rw [hk, h.locks]
  cases hs : a.sections[t]? with
  | none => exact .refl []
  | some s => exact (perm s hs).filterMap _

/-- The sequence of locks comes first, in the order of words, of all permutations in which every arc
leads forward. -/
structure Least (arc : LockNum → LockNum → Prop) (locks l : List LockNum) : Prop where
  perm : l.Perm locks
  forward : Forward arc l
  least : ∀ k, k.Perm locks → Forward arc k → k = l ∨ List.Lex (· < ·) l k

/-- There is one sequence that comes first. -/
lemma Least.unique {arc : LockNum → LockNum → Prop} {locks k : List LockNum}
    (hl : Least arc locks l) (hk : Least arc locks k) : k = l := by
  rcases hl.least k hk.perm hk.forward with same | less
  · exact same
  · rcases hk.least l hl.perm hl.forward with same | less'
    · exact same.symm
    · exact absurd less' (lt_asymm (a := l) (b := k) less)

/-- Where nothing leads back, a grouped section acquires distinct locks in the sequence that comes
first. -/
lemma least_reorder (fault : (a.reorder o).fault = none) (ht : t ∈ a.groupedSections)
    (acyclic : ∀ x, ¬ TransGen (a.OwnArc o t) x x) (nodup : (a.held t).Nodup) :
    Least (a.OwnArc o t) (a.held t) ((a.reorder o).arena.held t) := by
  rw [held_reorder fault ht]
  rw [← view_planOf] at acyclic ⊢
  exact ⟨LockPlan.acquired_perm, LockPlan.forward_acquired acyclic,
    fun k perm forward => LockPlan.acquired_least acyclic nodup perm forward⟩

/-- A reordering counts the locksets that it changes. -/
lemma changed_reorder (fault : (a.reorder o).fault = none) :
    (a.reorder o).changed = a.sectionIds.countP fun t =>
      ((a.reorder o).arena.sections[t]?).map (·.lockset) ≠ (a.sections[t]?).map (·.lockset) := by
  have counted : (a.reorder o).changed = 0 + a.sectionIds.countP fun t =>
      (a.reorder o).arena.sections[t]? ≠ a.sections[t]? :=
    changed_reorderEach (r := { arena := a }) List.nodup_range
  rw [counted, Nat.zero_add]
  apply List.countP_congr
  intro t ht
  obtain ⟨u, hu⟩ : ∃ u, a.sections[t]? = some u :=
    ⟨_, List.getElem?_eq_getElem (List.mem_range.mp ht)⟩
  -- a section changes by its lockset only
  have only : a.inOrder o t u = u ↔ (a.inOrder o t u).lockset = u.lockset := by
    constructor
    · exact congrArg _
    · intro same
      rw [← with_lockset_inOrder, same]
  simp only [(reorder_section fault hu).2, hu, Option.map_some, ne_eq, Option.some_inj, only]

/-- The second arena is the first with its locksets put in order, of which some have changed. -/
structure Arranged (a : Arena) (o : LockOrder) (changed : Nat) (b : Arena) : Prop where
  locks : b.locks = a.locks
  groups : b.groups = a.groups
  length : b.sections.length = a.sections.length
  ungrouped : ∀ (t : SectionId) (u : Section), a.sections[t]? = some u → u.isGrouped = false →
    b.sections[t]? = some u
  /-- Of a grouped section the keys are put at other positions, each once, and nothing else changes.
  They are those that are planned in the arena before, by the arcs that the section sees there. -/
  grouped : ∀ (t : SectionId) (u : Section), a.sections[t]? = some u → u.isGrouped = true →
    ∃ (visible : List (LockNum × LockNum)) (positions : List Nat),
      positions.Perm (List.range u.lockset.length) ∧
      a.plannedLockset o t = .ok (some (visible, positions.filterMap (u.lockset[·]?))) ∧
      (∀ x y, (x, y) ∈ visible ↔ a.Visible o t x y) ∧
      b.sections[t]? = some { u with lockset := positions.filterMap (u.lockset[·]?) }
  changed : changed = a.sectionIds.countP fun t =>
    (b.sections[t]?).map (·.lockset) ≠ (a.sections[t]?).map (·.lockset)
  /-- A lock that leads to another, which does not lead back, is before it wherever the two
  occur. -/
  ordered : ∀ t ∈ a.groupedSections, ∀ x y, TransGen (a.OwnArc o t) x y →
    ¬ TransGen (a.OwnArc o t) y x → ∀ i j : Nat,
    (b.held t)[i]? = some x → (b.held t)[j]? = some y → i < j
  /-- Where no lock leads back to itself, distinct locks are in the sequence that comes first of
  those that follow the arcs, from whatever order of the locksets. -/
  least : ∀ t ∈ a.groupedSections, (∀ x, ¬ TransGen (a.OwnArc o t) x x) → (a.held t).Nodup →
    Least (a.OwnArc o t) (a.held t) (b.held t) ∧
    ∀ c, Shuffled a c → c.validate = .ok () → (c.reorder o).arena.held t = b.held t

/-- A reordering of a valid arena by any order of locks goes through with all its checks, wherever
it gets the strongly connected components from, and puts the locksets in order. -/
theorem reorder_arranges {scc : Checked.Clustering} (exact : scc.Exact)
    (valid : a.validate = .ok ())
    (o : LockOrder) : ∃ changed b, Checked.reorder scc o a = .ok changed b ∧
      (a.reorder o).fault = none ∧ (a.reorder o).changed = changed ∧ (a.reorder o).arena = b ∧
      a.Arranged o changed b := by
  have valid := validate_eq_ok.mp valid
  obtain ⟨fault, _, locks⟩ := valid.reorder (o := o)
  refine ⟨_, _, Checked.reorder_ok exact valid, fault, rfl, rfl, ?_⟩
  constructor
  case locks => exact locks
  case groups => exact groups_reorderEach
  case length => exact (Shuffled.of_reorder fault).length_sections
  case ungrouped =>
    intro t u hu hg
    rw [(reorder_section fault hu).2, inOrder_of_ungrouped hg]
  case grouped =>
    intro t u hu hg
    obtain ⟨known, put⟩ := reorder_section fault hu
    refine ⟨a.visibleTo o t, (a.planOf o t).positions, ?_, ?_, fun x y => mem_visibleTo, ?_⟩
    · rw [known.length_eq hg]
      exact LockPlan.positions_perm
    · obtain ⟨planned, hp⟩ := valid.plannedLockset (o := o) hu
      obtain ⟨u', hu', _, rfl⟩ := plannedLockset_eq_ok hp
      rw [hu] at hu'
      cases hu'
      rw [hp, hg]
      rfl
    · rw [put, inOrder_of_grouped hg]
      rfl
  case changed => exact changed_reorder fault
  case ordered =>
    intro t ht x y there back i j hi hj
    rw [held_reorder fault ht] at hi hj
    rw [← view_planOf] at there back
    exact LockPlan.acquired_lt there back hi hj
  case least =>
    intro t ht acyclic nodup
    have least := least_reorder fault ht acyclic nodup
    refine ⟨least, fun c shuffled valid' => ?_⟩
    have perm : (c.held t).Perm (a.held t) := shuffled.held_perm
    have arcs : c.OwnArc o t = a.OwnArc o t := shuffled.ownArc
    have fault' : (c.reorder o).fault = none := (validate_eq_ok.mp valid').reorder.1
    have least' := least_reorder fault' (shuffled.mem_groupedSections.mpr ht) (arcs ▸ acyclic)
      (perm.nodup_iff.mpr nodup)
    rw [arcs] at least'
    exact least.unique ⟨least'.perm.trans perm, least'.forward,
      fun k hk => least'.least k (hk.trans perm.symm)⟩

/-- By an arc of the second of the crossing sections, the first takes its locks in the order of the
second. -/
theorem reorder_arranges_crossing :
    crossing.validate = .ok () ∧ ∃ b,
      Checked.reorder .byLeader (LockOrder.empty.addArc 2 1 1) crossing = .ok 1 b ∧
      crossing.held 0 = [1, 2] ∧ b.held 0 = [2, 1] ∧
      crossing.Arranged (LockOrder.empty.addArc 2 1 1) 1 b := by
  obtain ⟨changed, b, checked, _, count, arena, arranged⟩ :=
    reorder_arranges (a := crossing) Checked.Clustering.byLeader_exact
      rfl (LockOrder.empty.addArc 2 1 1)
  have one : (crossing.reorder (LockOrder.empty.addArc 2 1 1)).changed = 1 := by decide +kernel
  rw [count] at one
  subst one
  refine ⟨rfl, b, checked, by decide +kernel, ?_, arranged⟩
  rw [← arena]
  decide +kernel

end Interlock.Arena
