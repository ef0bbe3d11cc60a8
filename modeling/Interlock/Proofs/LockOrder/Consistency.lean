import Interlock.Proofs.Analysis
import Interlock.Proofs.LockOrder.Ring

/-!
# The orders in which sections acquire two locks

After an analysis that leaves no deadlock and puts the locksets in order, each section acquires its
locks by its own plan. Two sections acquire two locks in the same order where their views of these
locks agree (`Arena.reordered_agree`), and sections that hold the same locks and do not exclude each
other have the same view (`Arena.agree_of_same_locks`, `Arena.reordered_same_locks`).

The orders are not the same throughout (`Arena.reordered_disagree`): a lock between the two that one
of the sections does not hold, an arc that one of them does not see, and a cycle that both see may
each make two sections acquire two locks in opposed orders.
-/

namespace Interlock

namespace Arena

variable {a : Arena} {oracle : Oracle} {config : Config} {found : LockSearch} {r : Analysis}
  {o : LockOrder} {t u : SectionId} {x y : LockNum}

/-- An analysis that leaves no deadlock, and is to put the locksets in order, puts those in order
that the search has left. -/
lemma analyze_reordered (mode : config.mode = .lockset) (asked : config.reorderLocksets = true)
    (hf : a.searchLocks oracle config = .ok found) (hr : a.analyze oracle config = .ok r)
    (free : r.report.status.isDeadlockFree = true) :
    found.status.isDeadlockFree = true ∧ (found.arena.reorder found.order).fault = none ∧
      r.arena = (found.arena.reorder found.order).arena := by
  obtain ⟨found', hf', reports⟩ := exists_found mode hr
  rw [hf] at hf'
  cases hf'
  rw [reports.status, Status.isDeadlockFree_map] at free
  refine ⟨free, (reorder_found hf free).1, ?_⟩
  rw [reports.arena, asked, free]
  rfl

/-- A section that is put in order holds the locks that it held. -/
lemma mem_held_reorder (labels : o.LabelsGrouped a) (fault : (a.reorder o).fault = none)
    (ht : t ∈ a.groupedSections) : x ∈ (a.reorder o).arena.held t ↔ x ∈ a.held t := by
  obtain ⟨p, hp, -, acquired⟩ := reorder_planned labels fault ht
  rw [← acquired, p.acquired_perm.mem_iff, hp]

/-- Two sections whose views of two locks agree are put in an order in which they acquire them
alike. -/
lemma reorder_agree (labels : o.LabelsGrouped a) (fault : (a.reorder o).fault = none)
    (ht : t ∈ a.groupedSections) (hu : u ∈ a.groupedSections) (htx : x ∈ a.held t)
    (hty : y ∈ a.held t) (hux : x ∈ a.held u) (huy : y ∈ a.held u)
    (agree : Agree (a.View o t) (a.View o u) (a.held t) (a.held u) x y) :
    Before ((a.reorder o).arena.held t) x y ↔ Before ((a.reorder o).arena.held u) x y := by
  obtain ⟨p, hp, hpv, hpa⟩ := reorder_planned labels fault ht
  obtain ⟨q, hq, hqv, hqa⟩ := reorder_planned labels fault hu
  have hpv : p.View = a.View o t := funext₂ fun x y => propext (hpv x y)
  have hqv : q.View = a.View o u := funext₂ fun x y => propext (hqv x y)
  rw [← hpa, ← hqa]
  rw [← hp] at htx hty
  rw [← hq] at hux huy
  rw [← hp, ← hq, ← hpv, ← hqv] at agree
  exact LockPlan.acquired_agree htx hty hux huy agree

/-- Two sections whose views of two locks agree end up acquiring them in the same order. -/
theorem reordered_agree (mode : config.mode = .lockset) (asked : config.reorderLocksets = true)
    (hf : a.searchLocks oracle config = .ok found) (hr : a.analyze oracle config = .ok r)
    (free : r.report.status.isDeadlockFree = true) (ht : t ∈ a.groupedSections)
    (hu : u ∈ a.groupedSections) (htx : x ∈ r.arena.held t) (hty : y ∈ r.arena.held t)
    (hux : x ∈ r.arena.held u) (huy : y ∈ r.arena.held u)
    (agree : Agree (found.arena.View found.order t) (found.arena.View found.order u)
      (found.arena.held t) (found.arena.held u) x y) :
    Before (r.arena.held t) x y ↔ Before (r.arena.held u) x y := by
  obtain ⟨clean, fault, left⟩ := analyze_reordered mode asked hf hr free
  have labels : found.order.LabelsGrouped found.arena := (clean_of_deadlockFree hf clean).grouped
  rw [← mem_groupedSections_found hf] at ht hu
  rw [left, mem_held_reorder labels fault ht] at htx hty
  rw [left, mem_held_reorder labels fault hu] at hux huy
  rw [left]
  exact reorder_agree labels fault ht hu htx hty hux huy agree

/-- The configuration that reports deadlocks and puts locksets in order. -/
def reordering : Config := { reorderLocksets := true }

/-- An arena with three locks in the heap and a static lock, and with one group of all sections. -/
def ofClosed (sections : List Section) : Arena where
  sections := sections
  groups := [{ number := 1, members := .ofList (List.range sections.length) }]
  locks :=
    { numbers := [(.value "A", 1), (.value "B", 2), (.value "C", 3), (.value "S", -4)]
      slots := List.replicate 4 .empty }

/-- Lock `B` is taken before `A`, and two sections that hold both see that. -/
def sharedArc : Arena :=
  .ofClosed
    [.closed 0 [1] [.value "B"], .closed 1 [] [.value "A"], .closed 2 [] [.value "A", .value "B"],
      .closed 3 [] [.value "C", .value "A", .value "B"]]

/-- What the search leaves of the arena with a shared arc. -/
def sharedArcFound : LockSearch :=
  LockSearch.run reordering reordering.maxIterations (LockSearch.start sharedArc fun site => [site])

/-- Sections that see the arc between two locks acquire them by it. -/
theorem reordered_agree_sharedArc :
    ∃ r, sharedArc.searchLocks (fun site => [site]) reordering = .ok sharedArcFound ∧
      sharedArc.analyze (fun site => [site]) reordering = .ok r ∧
      r.arena.held 2 = [2, 1] ∧ r.arena.held 3 = [2, 1, 3] ∧
      (Before (r.arena.held 2) 2 1 ↔ Before (r.arena.held 3) 2 1) := by
  have found : sharedArc.searchLocks (fun site => [site]) reordering = .ok sharedArcFound :=
    searchLocks_eq_ok.mpr ⟨rfl, rfl⟩
  have single : ∀ entry ∈ sharedArcFound.order.claims.toList, entry.1 ≠ 1 := by decide +kernel
  have noneBack : ∀ t,
      ¬ Relation.TransGen (sharedArcFound.arena.View sharedArcFound.order t) 1 2 := by
    intro t h
    obtain ⟨n, ⟨_, _, _, s, hl, _⟩, _⟩ := Relation.TransGen.head'_iff.mp h
    exact single _ hl rfl
  have ahead : ∀ t, (2 : LockNum) ∈ sharedArcFound.arena.held t →
      (1 : LockNum) ∈ sharedArcFound.arena.held t → ¬ sharedArcFound.arena.Excludes t 0 →
      Ahead (sharedArcFound.arena.View sharedArcFound.order t) 2 1 := by
    intro t hx hy hn
    exact ⟨.single ⟨by decide, hx, hy, 0, by decide +kernel, .inr hn⟩, noneBack t⟩
  refine ⟨_, found, rfl, by decide +kernel, by decide +kernel, ?_⟩
  apply reordered_agree rfl rfl found rfl rfl
  · decide +kernel
  · decide +kernel
  · decide +kernel
  · decide +kernel
  · decide +kernel
  · decide +kernel
  · exact .ahead (ahead 2 (by decide +kernel) (by decide +kernel) (by decide +kernel))
      (ahead 3 (by decide +kernel) (by decide +kernel) (by decide +kernel))

/-- Two sections that hold the same locks and do not exclude each other see the same arcs, so they
agree on two locks that are on no common cycle. -/
lemma agree_of_same_locks (same : ∀ n, n ∈ a.held t ↔ n ∈ a.held u) (exposed : ¬ a.Excludes t u)
    (hn : ¬ LockPlan.Joined (a.View o t) x y) :
    Agree (a.View o t) (a.View o u) (a.held t) (a.held u) x y := by
  have free : ∀ n ∈ a.held t, ¬ n.isStatic = true := by
    intro n hn hs
    exact exposed (excludes_iff.mpr ⟨n, hs, hn, (same n).mp hn⟩)
  have sees : ∀ {v}, (∀ n, n ∈ a.held v ↔ n ∈ a.held t) → ∀ {s}, ¬ a.Excludes v s := by
    intro v hv s hx
    obtain ⟨n, hs, hn, _⟩ := excludes_iff.mp hx
    exact free n ((hv n).mp hn) hs
  refine .apart hn fun z w _ => ?_
  have ht : ∀ s, ¬ a.Excludes t s := fun s => sees fun n => Iff.rfl
  have hu : ∀ s, ¬ a.Excludes u s := fun s => sees fun n => (same n).symm
  simp only [View, Sees, same, ht, hu, not_false_eq_true, or_true, and_true]

/-- Two sections that the search leaves with the same locks, and that do not exclude each other, end
up acquiring any two of them in the same order that are on no common cycle. -/
theorem reordered_same_locks (mode : config.mode = .lockset) (asked : config.reorderLocksets = true)
    (hf : a.searchLocks oracle config = .ok found) (hr : a.analyze oracle config = .ok r)
    (free : r.report.status.isDeadlockFree = true) (ht : t ∈ a.groupedSections)
    (hu : u ∈ a.groupedSections) (same : ∀ n, n ∈ found.arena.held t ↔ n ∈ found.arena.held u)
    (exposed : ¬ found.arena.Excludes t u) (hx : x ∈ found.arena.held t)
    (hy : y ∈ found.arena.held t) (apart : ¬ LockPlan.Joined (found.arena.View found.order t) x y) :
    Before (r.arena.held t) x y ↔ Before (r.arena.held u) x y := by
  obtain ⟨clean, fault, left⟩ := analyze_reordered mode asked hf hr free
  have labels : found.order.LabelsGrouped found.arena := (clean_of_deadlockFree hf clean).grouped
  rw [← mem_groupedSections_found hf] at ht hu
  rw [left]
  exact reorder_agree labels fault ht hu hx hy ((same x).mp hx) ((same y).mp hy)
    (agree_of_same_locks same exposed apart)

/-- The analysis leaves no deadlock, and two grouped sections that do not exclude each other acquire
two locks in opposed orders. -/
def Disagree (a : Arena) (t u : SectionId) (x y : LockNum) : Prop :=
  ∃ r, a.analyze (fun site => [site]) reordering = .ok r ∧ r.report.status.isDeadlockFree = true ∧
    t ∈ a.groupedSections ∧ u ∈ a.groupedSections ∧ ¬ r.arena.Excludes t u ∧ x ≠ y ∧
    (x ∈ r.arena.held t ∧ y ∈ r.arena.held t ∧ Before (r.arena.held t) x y) ∧
    (x ∈ r.arena.held u ∧ y ∈ r.arena.held u ∧ Before (r.arena.held u) y x)

/-- Lock `B` is taken before `C` and `C` before `A`; one section holds all three, and one lacks
`C`. -/
def betweenLocks : Arena :=
  .ofClosed
    [.closed 0 [1] [.value "B"], .closed 1 [] [.value "C"], .closed 2 [3] [.value "C"],
      .closed 3 [] [.value "A"], .closed 4 [] [.value "A", .value "B", .value "C"],
      .closed 5 [] [.value "A", .value "B"]]

/-- Lock `B` is taken before `A` by a section that excludes one of two sections that hold both. -/
def hiddenArc : Arena :=
  .ofClosed
    [.closed 0 [1] [.value "B", .value "S"], .closed 1 [] [.value "A"],
      .closed 2 [] [.value "A", .value "B", .value "S"], .closed 3 [] [.value "A", .value "B"]]

/-- Locks `A` and `B` are taken in both orders by sections that exclude each other, and two sections
that see both hold them in either order. -/
def sharedCycle : Arena :=
  .ofClosed
    [.closed 0 [1] [.value "A", .value "S"], .closed 1 [] [.value "B"],
      .closed 2 [3] [.value "B", .value "S"], .closed 3 [] [.value "A"],
      .closed 4 [] [.value "A", .value "B"], .closed 5 [] [.value "B", .value "A"]]

/-- Sections acquire two locks in opposed orders if one of them lacks a lock between the two, if one
of them does not see an arc between the two, or if the two are on a common cycle. -/
theorem reordered_disagree :
    betweenLocks.Disagree 4 5 2 1 ∧ hiddenArc.Disagree 3 2 2 1 ∧ sharedCycle.Disagree 4 5 2 1 := by
  refine ⟨⟨_, rfl, rfl, ?_⟩, ⟨_, rfl, rfl, ?_⟩, ⟨_, rfl, rfl, ?_⟩⟩
  · decide +kernel
  · decide +kernel
  · decide +kernel

end Arena

end Interlock
