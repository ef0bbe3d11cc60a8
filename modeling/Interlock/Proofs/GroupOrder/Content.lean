import Interlock.Analysis
import Interlock.Proofs.GroupOrder.Condensation

/-!
# The content of the order of groups

A search that leaves no deadlock ends with a pass that meets no conflict. Such a pass has gone over
all pairs of locked sections, so its order has the groups of locked sections as nodes
(`mem_nodes_of_pass`) and an arc for each two groups of which the one enters the other
(`mem_arcs_of_pass`). The pass went over the arena that the search leaves (`run_passed`), so the
order is that of the final groups, and nothing is left in it of a pass that met a conflict or of a
group that a merge has emptied. The report lists its arcs in ascending order (`searchGroups_order`).
-/

namespace Interlock

/-- Pairs of numbers are listed by the first numbers, and by the second where the first agree. -/
lemma lt_of_before {p q : Nat × Nat} (h : Ranked.before p q = true) :
    p.1 < q.1 ∨ (p.1 = q.1 ∧ p.2 < q.2) := by
  simp only [Ranked.before, Ranked.beforePair, Bool.or_eq_true, Bool.and_eq_true, Bool.not_eq_true',
    decide_eq_true_eq, decide_eq_false_iff_not] at h
  omega

namespace GroupSearch

variable {a b : Arena} {oracle : Oracle} {config : Config} {p q : Progress} {s : GroupSearch}
  {g g' : Growing} {ps : List (LockedSection × LockedSection)} {o : Digraph GroupId}
  {c : GroupConflict} {x y : GroupId} {t u : SectionId} {n : Nat}

/-- Pairs that are all taken on add their groups and nothing else. -/
lemma takeAll_nodes (h : ps.foldlM takePair g = .ok g') :
    x ∈ g'.order.nodes ↔
      x ∈ g.order.nodes ∨ ∃ p ∈ ps, p.1.group = x ∨ p.2.group = x := by
  induction ps generalizing g with
  | nil =>
    cases h
    simp
  | cons p rest ih =>
    rw [List.foldlM_cons] at h
    obtain ⟨g1, h1, h⟩ := bind_eq_ok.mp h
    obtain ⟨_, rfl⟩ := takePair_ok h1
    rw [ih h, Growing.taking, Digraph.mem_nodes_addArc]
    simp only [List.mem_cons, exists_eq_or_imp, eq_comm (a := x), or_assoc, or_left_comm]

lemma mem_nodes_of_pass (hp : pass a config = .ok o) :
    x ∈ o.nodes ↔ ∃ t, a.LockedIn t x := by
  obtain ⟨grown, hg, hp⟩ := bind_eq_ok.mp hp
  cases hp
  rw [takeAll_nodes hg, Digraph.mem_nodes_addNodes, List.mem_map]
  have locked : ∀ {y}, y ∈ a.lockedSections → y.group = x → ∃ t, a.LockedIn t x := by
    rintro y hy rfl
    exact ⟨y.id, Arena.lockedIn_of_mem hy⟩
  constructor
  · rintro ((none | ⟨y, hy, hx⟩) | ⟨p, hp, hx⟩)
    · exact absurd none SortedSet.not_mem_empty
    · exact locked hy hx
    · -- the sections of a pair are locked, so its groups are nodes already
      obtain ⟨outer, inner, _⟩ := Arena.mem_orderingPairs.mp hp
      rcases hx with hx | hx
      · exact locked outer hx
      · exact locked inner hx
  · rintro ⟨t, ht⟩
    obtain ⟨y, hy, _, hx⟩ := ht.exists_mem
    exact .inl (.inr ⟨y, hy, hx⟩)

lemma mem_arcs_of_pass (ready : Ready a) (hp : pass a config = .ok o) :
    (x, y) ∈ o.arcs ↔ (x ≠ y ∨ config.effectiveAllowSelfEdges = true) ∧
      ∃ t u, a.LockedIn t x ∧ a.LockedIn u y ∧ a.mayEnter t u = true := by
  rw [(pass_ok hp).1.arcs]
  constructor
  · rintro ⟨p, hp, hx, hy⟩
    obtain ⟨asked, outer, inner, enters⟩ :=
      (Arena.exists_orderingPair ready.valid ready.numbered).mp ⟨p, hp, ⟨rfl, rfl⟩, hx, hy⟩
    exact ⟨asked, p.1.id, p.2.id, outer, inner, enters⟩
  · rintro ⟨asked, t, u, ht, hu, enters⟩
    obtain ⟨p, hp, _, hx, hy⟩ :=
      (Arena.exists_orderingPair ready.valid ready.numbered).mpr ⟨asked, ht, hu, enters⟩
    exact ⟨p, hp, hx, hy⟩

lemma mayEnter_repair (h : repair p o c = .ok q) : q.arena.mayEnter t u = p.arena.mayEnter t u := by
  obtain ⟨b, hb, h⟩ := bind_eq_ok.mp h
  cases h
  rcases Arena.mergeGroups_eq_ok hb with ⟨_, same⟩ | ⟨_, merged⟩
  · rw [same]
  · exact merged.mayEnter

/-- What a run leaves that ends with a pass without a conflict. -/
structure Passed (a : Arena) (config : Config) (s : GroupSearch) : Prop where
  ready : Ready s.arena
  passed : pass s.arena config = .ok s.order
  /-- Merges keep which sections may enter which. -/
  entered : ∀ t u, s.arena.mayEnter t u = a.mayEnter t u

/-- A run has a result. If this leaves no deadlock, its order is that of a pass over the arena it
leaves. -/
theorem run_passed (ready : Ready p.arena) :
    ∃ s, run config n p = .ok s ∧ (s.status.isDeadlockFree = true → Passed p.arena config s) := by
  induction n generalizing p with
  | zero =>
    refine ⟨_, rfl, fun free => ?_⟩
    cases free
  | succ n ih =>
    cases hp : pass p.arena config with
    | ok o =>
      obtain ⟨s, hs, arena, settled⟩ := run_over ready hp
      exact ⟨s, hs, fun _ => ⟨settled.ready, settled.passed, fun t u => by rw [arena]⟩⟩
    | error e =>
      obtain ⟨o, c⟩ := e
      cases hr : config.repair with
      | true =>
        simp only [run, hp, hr, if_true]
        obtain ⟨q, hq, repaired⟩ := repair_repaired hr ready hp _
        rw [hq]
        obtain ⟨s, hs, passed⟩ := ih repaired.ready
        refine ⟨s, hs, fun free => ?_⟩
        obtain ⟨ready', passed', entered⟩ := passed free
        refine ⟨ready', passed', fun t u => ?_⟩
        rw [entered, mayEnter_repair hq]
      | false =>
        simp only [run, hp, hr]
        refine ⟨_, rfl, fun free => ?_⟩
        cases free

end GroupSearch

namespace Arena

variable {a : Arena} {oracle : Oracle} {config : Config} {s : GroupSearch}

/-- An analysis of groups lists the arcs that its search has found. -/
lemma analyze_of_groups (mode : config.mode = .group) (hs : a.searchGroups oracle config = .ok s) :
    ∃ r, a.analyze oracle config = .ok r ∧ r.arena = s.arena ∧
    r.report.edges = groupArcs s.order := by
  obtain ⟨valid, _⟩ := GroupSearch.searchGroups_eq_ok.mp hs
  simp only [analyze, mode, analyzeGroups, valid, hs, bind, Except.bind, pure, Except.pure]
  exact ⟨_, rfl, rfl, rfl⟩

end Arena

/-- The order of a search between groups by the groups that the search leaves. -/
structure GroupSearch.OrderExact (a : Arena) (oracle : Oracle) (config : Config) (s : GroupSearch) :
    Prop where
  /-- The nodes are the groups of the locked sections. -/
  nodes : ∀ g, g ∈ s.order.nodes ↔ ∃ t, s.arena.LockedIn t g
  /-- The arcs are those of locked sections that may enter others, also of their own group where
  this is asked for. -/
  arcs : ∀ g h, (g, h) ∈ s.order.arcs ↔ (g ≠ h ∨ config.effectiveAllowSelfEdges = true) ∧
    ∃ t u, s.arena.LockedIn t g ∧ s.arena.LockedIn u h ∧ s.arena.mayEnter t u = true
  /-- What a section may enter is what the calls of the arena at hand make of it. -/
  entered : ∀ t u, s.arena.mayEnter t u = (a.ensureAllTargets oracle).mayEnter t u
  /-- A report lists the arcs, each once, in ascending order of the groups. -/
  listed : config.mode = .group → ∃ r, ∃ pairs : List (GroupId × GroupId),
    a.analyze oracle config = .ok r ∧ r.arena = s.arena ∧
    r.report.edges = pairs.map (fun (g, h) => { first := g.text, after := h.text, labels := [] }) ∧
    pairs.Pairwise (fun p q => p.1 < q.1 ∨ (p.1 = q.1 ∧ p.2 < q.2)) ∧
    ∀ g h, (g, h) ∈ pairs ↔ (g, h) ∈ s.order.arcs

/-- A search of a valid arena between groups has a result. If this leaves no deadlock, the order has
exactly the groups of locked sections and the pairs of groups that enter each other, by the groups
that are left, and the report lists these pairs. Every arena that the operations build is numbered
(`Arena.Built.numbered`). -/
theorem searchGroups_order {a : Arena} {oracle : Oracle} {config : Config}
    (valid : a.validate = .ok ()) (numbered : a.Numbered) :
    ∃ s, a.searchGroups oracle config = .ok s ∧
      (s.status.isDeadlockFree = true → GroupSearch.OrderExact a oracle config s) := by
  have ready : GroupSearch.Ready (GroupSearch.start a oracle).arena :=
    GroupSearch.ready_start (Arena.validate_eq_ok.mp valid) numbered
  obtain ⟨s, hs, passed⟩ : ∃ s,
      GroupSearch.run config config.maxIterations (GroupSearch.start a oracle) = .ok s ∧
        (s.status.isDeadlockFree = true →
          GroupSearch.Passed (GroupSearch.start a oracle).arena config s) :=
    GroupSearch.run_passed ready
  have found : a.searchGroups oracle config = .ok s :=
    GroupSearch.searchGroups_eq_ok.mpr ⟨valid, hs⟩
  refine ⟨s, found, fun free => ?_⟩
  obtain ⟨ready', passed', entered⟩ := passed free
  constructor
  · exact fun g => GroupSearch.mem_nodes_of_pass passed'
  · exact fun g h => GroupSearch.mem_arcs_of_pass ready' passed'
  · exact entered
  · intro mode
    obtain ⟨r, hr, arena, edges⟩ := Arena.analyze_of_groups mode found
    refine ⟨r, s.order.arcs.toList, hr, arena, edges, ?_, fun _ _ => Iff.rfl⟩
    exact s.order.arcs.sorted.imp lt_of_before

/-- Once the two groups are merged that enter each other, the third comes before what is left of
them, and no arc is left of the pass that met the conflict. -/
theorem searchGroups_order_crossing :
    ∃ s, crossingGroups.searchGroups (fun site => [site]) { repair := true } = .ok s ∧
      s.status = .repaired 1 ∧ s.order.arcs.toList = [(2, 1)] ∧
      GroupSearch.OrderExact crossingGroups (fun site => [site]) { repair := true } s := by
  obtain ⟨s, hs, exact⟩ : ∃ s,
      crossingGroups.searchGroups (fun site => [site]) { repair := true } = .ok s ∧
        (s.status.isDeadlockFree = true →
          GroupSearch.OrderExact crossingGroups (fun site => [site]) { repair := true } s) :=
    searchGroups_order rfl numbered_crossingGroups
  have repaired : ∃ s, crossingGroups.searchGroups (fun site => [site]) { repair := true } = .ok s ∧
      s.status = .repaired 1 ∧ s.order.arcs.toList = [(2, 1)] := ⟨_, rfl, rfl, rfl⟩
  obtain ⟨s', hs', status, arcs⟩ := repaired
  rw [hs] at hs'
  cases hs'
  have free : s.status.isDeadlockFree = true := by
    rw [status]
    rfl
  exact ⟨s, hs, status, arcs, exact free⟩

end Interlock
