import Interlock.Proofs.Checked.Access
import Mathlib.Data.Finset.Card

/-!
# A checked plan

A plan with all its positions and counters. The locks of a section fall into strongly connected
components, which are found elsewhere (`Clustering`) and come in any order. Each component counts
the components that lead straight to it; one whose counter is zero waits in a queue. The smallest of
those that wait is taken out, its locks are sorted, and the counters of the components after it go
down.

Here are the definitions, and what there is before the first round: the smallest lock of a component
is the leader of its locks (`Components.leaderOf_eq`), and each counter is the count of the
components before (`Condensation.Condenses.linkAll`). The rounds of the queue are in
`Interlock.Proofs.Checked.Queue`.
-/

namespace Interlock.Checked

/-- What finds the strongly connected components of a graph, given its nodes and its arcs. -/
abbrev Clustering := List LockNum → List (LockNum × LockNum) → List (List LockNum)

/-- The lists are the strongly connected components of the graph, in any order. -/
structure Components (nodes : List LockNum) (arcs : List (LockNum × LockNum))
    (cs : List (List LockNum)) : Prop where
  nonempty : [] ∉ cs
  inside : ∀ c ∈ cs, ∀ n ∈ c, n ∈ nodes
  covers : ∀ n ∈ nodes, ∃ c ∈ cs, n ∈ c
  disjoint : cs.Pairwise List.Disjoint
  /-- Two nodes share a component exactly if each leads to the other. -/
  joined : ∀ c ∈ cs, ∀ m ∈ c, ∀ n ∈ nodes,
    n ∈ c ↔ LockPlan.Joined (fun a b => (a, b) ∈ arcs) m n

/-- The strongly connected components of every graph are found. -/
def Clustering.Exact (scc : Clustering) : Prop :=
  ∀ nodes arcs, nodes.Nodup → (∀ arc ∈ arcs, arc.1 ∈ nodes ∧ arc.2 ∈ nodes) →
    Components nodes arcs (scc nodes arcs)

/-- The arcs among the locks of a section. -/
def arcsAmong (p : LockPlan) : List (LockNum × LockNum) :=
  Walk.fresh [] (p.locks.flatMap fun a => (p.next a).map (a, ·))

/-- The lists are the components of the locks of a section. -/
abbrev Splits (p : LockPlan) (cs : List (List LockNum)) : Prop :=
  Components (Walk.fresh [] p.locks) (arcsAmong p) cs

/-- The number of the component that a lock was last put into. -/
def componentOf (cs : List (List LockNum)) (n : LockNum) : Except Trap Nat :=
  match (cs.zipIdx.flatMap fun (c, i) => c.map (·, i)).reverse.lookup n with
  | some i => .ok i
  | none => .error (.unplaced n)

/-- The components after each component, and the count of those before it. -/
structure Condensation where
  successors : List (List Nat)
  inDegree : List Nat

/-- Takes on the arc between two locks, unless it is inside a component or known. -/
def Condensation.link (cs : List (List LockNum)) (g : Condensation) (arc : LockNum × LockNum) :
    Except Trap Condensation := do
  let i ← componentOf cs arc.1
  let j ← componentOf cs arc.2
  if i = j then return g
  let known ← item g.successors i
  if known.contains j then return g
  let degree ← item g.inDegree j
  return { successors := ← setItem g.successors i (known ++ [j])
           inDegree := ← setItem g.inDegree j (degree + 1) }

/-- A component in the queue, with its smallest lock. -/
abbrev Waiting := Option LockNum × Nat

/-- A component is taken out of the queue before another. -/
def Waiting.before : Waiting → Waiting → Bool
  | (none, i), (none, j) => i < j
  | (none, _), (some _, _) => true
  | (some _, _), (none, _) => false
  | (some m, i), (some n, j) => m < n || (m = n && i < j)

/-- The first component to be taken out of the queue. -/
def next? (ready : List Waiting) : Option Waiting :=
  ready.find? fun e => ready.all fun f => !f.before e

/-- A component as it is put into the queue. -/
def waiting (cs : List (List LockNum)) (i : Nat) : Except Trap Waiting := do
  return ((← item cs i).min?, i)

/-- The components that wait, and the counters of all components. -/
structure Queue where
  ready : List Waiting
  inDegree : List Nat

/-- Counts down a component's counter, and lets the component wait if it is zero then. -/
def Queue.release (cs : List (List LockNum)) (q : Queue) (j : Nat) : Except Trap Queue := do
  match ← item q.inDegree j with
  | 0 => throw .underflow
  | left + 1 =>
    let inDegree ← setItem q.inDegree j left
    if left = 0 then return { ready := (← waiting cs j) :: q.ready, inDegree }
    else return { q with inDegree }

/-- Puts the position of a lock before the first whose lock it precedes. -/
def insertMember (p : LockPlan) (n : LockNum) (position : Nat) (sorted : List Nat) :
    Except Trap (List Nat) := do
  let others ← sorted.mapM (item p.locks)
  let place := others.findIdx (p.precedes n)
  if place ≤ sorted.length then return sorted.insertIdx place position
  else throw (.outOfRange place sorted.length)

/-- The positions of the locks of one component, in order. -/
def members (p : LockPlan) (cs : List (List LockNum)) (i : Nat) : Except Trap (List Nat) :=
  p.locks.zipIdx.foldlM (fun sorted entry => do
    if (← componentOf cs entry.1) = i then insertMember p entry.1 entry.2 sorted
    else return sorted) []

/-- Takes components out of the queue until it is empty. The number bounds the count of rounds. -/
def drain (p : LockPlan) (cs : List (List LockNum)) (successors : List (List Nat)) :
    Nat → Queue → List Nat → Except Trap (List Nat)
  | 0, q, positions => if q.ready.isEmpty then .ok positions else .error .unfinished
  | n + 1, q, positions =>
    match next? q.ready with
    | none => .ok positions
    | some e => do
      let sorted ← members p cs e.2
      let after ← item successors e.2
      let q ← after.foldlM (Queue.release cs) { q with ready := q.ready.erase e }
      drain p cs successors n q (positions ++ sorted)

/-- The positions of the lockset in the order in which its locks are to be acquired. -/
def plan (scc : Clustering) (p : LockPlan) : Except Trap (List Nat) := do
  let arcs := arcsAmong p
  let cs := scc (Walk.fresh [] p.locks) arcs
  let graph ← arcs.foldlM (Condensation.link cs)
    { successors := List.replicate cs.length [], inDegree := List.replicate cs.length 0 }
  let free ← (List.range cs.length).filterM fun i => do return (← item graph.inDegree i) = 0
  let ready ← free.mapM (waiting cs)
  drain p cs graph.successors cs.length { ready, inDegree := graph.inDegree } []

/-! ## Components -/

/-- The lock is in the component with a number. -/
def Sits (cs : List (List LockNum)) (n : LockNum) (i : Nat) : Prop := ∃ c, cs[i]? = some c ∧ n ∈ c

/-- The smallest lock of a component. -/
def leadOf (cs : List (List LockNum)) (i : Nat) : LockNum := ((cs[i]?).bind (·.min?)).getD 0

variable {p : LockPlan} {cs : List (List LockNum)} {arcs : List (LockNum × LockNum)} {m n : LockNum}
  {i j x : Nat}

lemma mem_distinct {α : Type} [DecidableEq α] {a : α} {l : List α} :
    a ∈ Walk.fresh [] l ↔ a ∈ l := by
  rw [Walk.mem_fresh, and_iff_left List.not_mem_nil]

lemma mem_arcsAmong : (m, n) ∈ arcsAmong p ↔ p.View m n := by
  simp only [arcsAmong, mem_distinct, List.mem_flatMap, List.mem_map, LockPlan.mem_next,
    Prod.mk.injEq]
  constructor
  · rintro ⟨m, hm, n, ⟨hn, arc⟩, rfl, rfl⟩
    exact ⟨hm, hn, arc⟩
  · rintro ⟨hm, hn, arc⟩
    exact ⟨m, hm, n, ⟨hn, arc⟩, rfl, rfl⟩

lemma Sits.lt (h : Sits cs n i) : i < cs.length := by
  obtain ⟨c, hc, _⟩ := h
  exact (List.getElem?_eq_some_iff.mp hc).1

lemma Sits.unique (disjoint : cs.Pairwise List.Disjoint) (hi : Sits cs n i) (hj : Sits cs n j) :
    i = j := by
  obtain ⟨c, hc, hn⟩ := hi
  obtain ⟨d, hd, hn'⟩ := hj
  obtain ⟨li, rfl⟩ := List.getElem?_eq_some_iff.mp hc
  obtain ⟨lj, rfl⟩ := List.getElem?_eq_some_iff.mp hd
  rw [List.pairwise_iff_getElem] at disjoint
  rcases Nat.lt_trichotomy i j with less | same | more
  · exact absurd hn' (disjoint i j li lj less hn)
  · exact same
  · exact absurd hn (disjoint j i lj li more hn')

lemma componentOf_ok (disjoint : cs.Pairwise List.Disjoint) (h : Sits cs n i) :
    componentOf cs n = .ok i := by
  have mem : ∀ {m j}, (m, j) ∈ (cs.zipIdx.flatMap fun (c, i) => c.map (·, i)).reverse ↔
      Sits cs m j := by
    intro m j
    simp only [List.mem_reverse, List.mem_flatMap, Prod.exists, List.mk_mem_zipIdx_iff_getElem?,
      List.mem_map, Prod.mk.injEq, Sits]
    constructor
    · rintro ⟨c, i, hc, m, hm, rfl, rfl⟩
      exact ⟨c, hc, hm⟩
    · rintro ⟨c, hc, hm⟩
      exact ⟨c, j, hc, m, hm, rfl, rfl⟩
  unfold componentOf
  cases hl : (cs.zipIdx.flatMap fun (c, i) => c.map (·, i)).reverse.lookup n with
  | none =>
    have absent := List.lookup_eq_none_iff.mp hl _ (mem.mpr h)
    simp at absent
  | some j =>
    obtain ⟨before, after, hl, _⟩ := List.lookup_eq_some_iff.mp hl
    have there : Sits cs n j := mem.mp (by rw [hl]; simp)
    rw [Sits.unique disjoint h there]

namespace Components

variable (h : Splits p cs)

include h

lemma exists_sits (hn : n ∈ p.locks) : ∃ i, Sits cs n i := by
  obtain ⟨c, hc, hmem⟩ := h.covers n (mem_distinct.mpr hn)
  obtain ⟨i, hi⟩ := List.mem_iff_getElem?.mp hc
  exact ⟨i, c, hi, hmem⟩

lemma mem_locks (hn : Sits cs n i) : n ∈ p.locks := by
  obtain ⟨c, hc, hmem⟩ := hn
  exact mem_distinct.mp (h.inside c (List.mem_of_getElem? hc) n hmem)

/-- Locks of one component are joined. -/
lemma sits_iff (hm : Sits cs m i) (hn : n ∈ p.locks) :
    Sits cs n i ↔ LockPlan.Joined p.View m n := by
  obtain ⟨c, hc, hmem⟩ := hm
  have view : (fun a b => (a, b) ∈ arcsAmong p) = p.View := by
    funext a b
    exact propext mem_arcsAmong
  rw [← view, ← h.joined c (List.mem_of_getElem? hc) m hmem n (mem_distinct.mpr hn)]
  constructor
  · rintro ⟨d, hd, hn⟩
    rw [hc] at hd
    cases hd
    exact hn
  · exact fun hn => ⟨c, hc, hn⟩

lemma min?_eq (hc : cs[i]? = some c) : c.min? = some (leadOf cs i) := by
  rw [leadOf, hc]
  cases hm : c.min? with
  | none =>
    rw [List.min?_eq_none_iff.mp hm] at hc
    exact absurd (List.mem_of_getElem? hc) h.nonempty
  | some m => simp [hm]

lemma sits_leadOf (hi : i < cs.length) : Sits cs (leadOf cs i) i := by
  have hc := List.getElem?_eq_getElem hi
  exact ⟨_, hc, (List.min?_eq_some_iff.mp (h.min?_eq hc)).1⟩

lemma leadOf_inj (hi : i < cs.length) (hj : j < cs.length) (e : leadOf cs i = leadOf cs j) :
    i = j := by
  have there := h.sits_leadOf hj
  rw [← e] at there
  exact (h.sits_leadOf hi).unique h.disjoint there

/-- The smallest lock of a component is the leader of its locks. -/
lemma leaderOf_eq (hn : Sits cs n i) : p.leaderOf n = leadOf cs i := by
  obtain ⟨c, hc, hmem⟩ := hn
  obtain ⟨hi, _⟩ := List.getElem?_eq_some_iff.mp hc
  obtain ⟨_, least⟩ := List.min?_eq_some_iff.mp (h.min?_eq hc)
  have hn : Sits cs n i := ⟨c, hc, hmem⟩
  have lead := h.sits_leadOf hi
  rw [LockPlan.leaderOf_eq_iff (h.mem_locks hn)]
  refine ⟨⟨h.mem_locks lead, (h.sits_iff hn (h.mem_locks lead)).mp lead⟩, ?_⟩
  intro b hb joined
  obtain ⟨c', hc', hb⟩ := (h.sits_iff hn hb).mpr joined
  rw [hc] at hc'
  cases hc'
  exact least b hb

/-- The leaders are the smallest locks of the components. -/
lemma leaders_perm :
    (p.leaders p.leaderOf).Perm ((List.range cs.length).map (leadOf cs)) := by
  refine (List.perm_ext_iff_of_nodup LockPlan.nodup_leaders ?_).mpr ?_
  · refine (List.nodup_map_iff_inj_on List.nodup_range).mpr ?_
    intro i hi j hj
    exact h.leadOf_inj (List.mem_range.mp hi) (List.mem_range.mp hj)
  · intro m
    rw [LockPlan.mem_leaders, List.mem_map]
    constructor
    · rintro ⟨hm, e⟩
      obtain ⟨i, hi⟩ := h.exists_sits hm
      exact ⟨i, List.mem_range.mpr hi.lt, (h.leaderOf_eq hi).symm.trans e⟩
    · rintro ⟨i, hi, rfl⟩
      have lead := h.sits_leadOf (List.mem_range.mp hi)
      exact ⟨h.mem_locks lead, h.leaderOf_eq lead⟩

end Components

/-! ## Components by their smallest locks -/

/-- The clusters of a plan, by their leaders. -/
def clusters (p : LockPlan) : List (List LockNum) :=
  (p.leaders p.leaderOf).map fun first => p.locks.filter fun n => p.leaderOf n = first

lemma mem_clusters {c : List LockNum} : c ∈ clusters p ↔ ∃ first ∈ p.locks,
    p.leaderOf first = first ∧ p.locks.filter (p.leaderOf · = first) = c := by
  simp only [clusters, List.mem_map, LockPlan.mem_leaders, and_assoc]

lemma joined_iff {view : LockNum → LockNum → Prop} : LockPlan.Joined view m n ↔
    Relation.ReflTransGen view m n ∧ Relation.ReflTransGen view n m := by
  rw [Relation.reflTransGen_iff_eq_or_transGen, Relation.reflTransGen_iff_eq_or_transGen,
    LockPlan.Joined, eq_comm]
  tauto

/-- An arc from a lock to itself joins nothing. -/
lemma joined_view (among : ∀ arc ∈ p.visible, arc.1 ∈ p.locks ∧ arc.2 ∈ p.locks) :
    LockPlan.Joined p.View m n ↔ LockPlan.Joined (fun a b => (a, b) ∈ p.visible) m n := by
  have seen : Relation.ReflTransGen p.View ≤
      Relation.ReflTransGen fun a b => (a, b) ∈ p.visible := by
    refine Relation.ReflTransGen.mono fun a b hab => ?_
    have arc := hab.2.2
    rw [LockPlan.arc, Bool.and_eq_true, List.contains_iff_mem] at arc
    exact arc.2
  have kept : Relation.ReflTransGen (fun a b => (a, b) ∈ p.visible) ≤
      Relation.ReflTransGen p.View := by
    refine Relation.reflTransGen_closed fun a b arc => ?_
    by_cases loop : a = b
    · rw [loop]
    · obtain ⟨ha, hb⟩ := among _ arc
      exact .single ⟨ha, hb, by simp [LockPlan.arc, loop, arc]⟩
  rw [joined_iff, joined_iff]
  exact and_congr ⟨seen _ _, kept _ _⟩ ⟨seen _ _, kept _ _⟩

/-- The clusters of a plan are the strongly connected components of its locks. -/
lemma components_clusters (among : ∀ arc ∈ p.visible, arc.1 ∈ p.locks ∧ arc.2 ∈ p.locks) :
    Components p.locks p.visible (clusters p) := by
  constructor
  case nonempty =>
    intro empty
    obtain ⟨first, hf, own, vacant⟩ := mem_clusters.mp empty
    exact List.filter_eq_nil_iff.mp vacant first hf (decide_eq_true own)
  case inside =>
    intro c hc n hn
    obtain ⟨first, _, _, rfl⟩ := mem_clusters.mp hc
    exact (List.mem_filter.mp hn).1
  case covers =>
    intro n hn
    have led : p.locks.filter (p.leaderOf · = p.leaderOf n) ∈ clusters p :=
      mem_clusters.mpr ⟨_, LockPlan.leaderOf_mem hn, LockPlan.leaderOf_leaderOf hn, rfl⟩
    exact ⟨_, led, List.mem_filter.mpr ⟨hn, decide_eq_true rfl⟩⟩
  case disjoint =>
    refine List.pairwise_map.mpr (LockPlan.nodup_leaders.imp ?_)
    intro first other distinct n hn hn'
    simp only [List.mem_filter, decide_eq_true_eq] at hn hn'
    exact distinct (hn.2.symm.trans hn'.2)
  case joined =>
    intro c hc m hm n hn
    obtain ⟨first, _, _, rfl⟩ := mem_clusters.mp hc
    obtain ⟨hm, led⟩ := List.mem_filter.mp hm
    rw [← of_decide_eq_true led, List.mem_filter, decide_eq_true_eq, and_iff_right hn,
      ← joined_view among, LockPlan.leaderOf_eq_leaderOf hn hm]
    exact ⟨.symm, .symm⟩

/-- The strongly connected components of a graph, by their smallest nodes. -/
def Clustering.byLeader : Clustering := fun nodes arcs =>
  clusters { locks := nodes, visible := arcs }

lemma Clustering.byLeader_exact : byLeader.Exact := fun nodes arcs _ among =>
  components_clusters (p := { locks := nodes, visible := arcs }) among

/-! ## Counters -/

/-- An arc leads from one component to another. -/
def Linked (cs : List (List LockNum)) (arcs : List (LockNum × LockNum)) (i j : Nat) : Prop :=
  i ≠ j ∧ ∃ arc ∈ arcs, Sits cs arc.1 i ∧ Sits cs arc.2 j

/-- Each counter is the count of the components that are pending. -/
structure Counted (k : Nat) (degrees : List Nat) (pending : Nat → Finset Nat) : Prop where
  size : degrees.length = k
  count : ∀ j < k, degrees[j]? = some (pending j).card

lemma Counted.set {k d : Nat} {degrees : List Nat} {pending : Nat → Finset Nat}
    (h : Counted k degrees pending) {s : Finset Nat} (hs : s.card = d) :
    Counted k (degrees.set j d) (Function.update pending j s) := by
  refine ⟨(List.length_set ..).trans h.size, fun i hi => ?_⟩
  by_cases e : j = i
  · subst e
    rw [Function.update_self, List.getElem?_set_self (h.size.symm ▸ hi), hs]
  · rw [Function.update_of_ne (Ne.symm e), List.getElem?_set_ne e]
    exact h.count i hi

open Classical in
/-- The components that arcs lead from to a component. -/
noncomputable def before (cs : List (List LockNum)) (arcs : List (LockNum × LockNum)) (j : Nat) :
    Finset Nat :=
  (Finset.range cs.length).filter fun i => Linked cs arcs i j

lemma mem_before : i ∈ before cs arcs j ↔ Linked cs arcs i j := by
  classical
  rw [before, Finset.mem_filter, Finset.mem_range]
  constructor
  · exact fun h => h.2
  · intro h
    obtain ⟨_, _, _, hi, _⟩ := id h
    exact ⟨hi.lt, h⟩

/-- The arcs are taken on. -/
structure Condensation.Condenses (g : Condensation) (cs : List (List LockNum))
    (arcs : List (LockNum × LockNum)) : Prop where
  size : g.successors.length = cs.length
  nodup : ∀ l ∈ g.successors, l.Nodup
  successors : ∀ i l, g.successors[i]? = some l → ∀ j, j ∈ l ↔ Linked cs arcs i j
  counted : Counted cs.length g.inDegree (before cs arcs)

lemma condenses_nil : Condensation.Condenses
    { successors := List.replicate cs.length [],
      inDegree := List.replicate cs.length 0 } cs [] := by
  have unlinked : ∀ i j, ¬ Linked cs [] i j := by
    rintro i j ⟨_, _, hmem, _⟩
    cases hmem
  refine ⟨List.length_replicate, ?_, ?_, List.length_replicate, ?_⟩
  · intro l hl
    rw [List.eq_of_mem_replicate hl]
    exact List.nodup_nil
  · intro i l hl j
    rw [List.eq_of_mem_replicate (List.mem_of_getElem? hl)]
    exact ⟨nofun, fun h => absurd h (unlinked i j)⟩
  · intro j hj
    have empty : before cs [] j = ∅ := by
      ext i
      rw [mem_before]
      exact ⟨fun h => absurd h (unlinked i j), fun h => absurd h (Finset.notMem_empty i)⟩
    rw [empty, List.getElem?_replicate, if_pos hj]
    rfl

lemma linked_concat (disjoint : cs.Pairwise List.Disjoint) (hm : Sits cs m i) (hn : Sits cs n j)
    {s t : Nat} :
    Linked cs (arcs ++ [(m, n)]) s t ↔ Linked cs arcs s t ∨ (i ≠ j ∧ s = i ∧ t = j) := by
  unfold Linked
  constructor
  · rintro ⟨hne, arc, hmem, hs, ht⟩
    rcases List.mem_append.mp hmem with hmem | hmem
    · exact .inl ⟨hne, arc, hmem, hs, ht⟩
    · cases List.mem_singleton.mp hmem
      cases hs.unique disjoint hm
      cases ht.unique disjoint hn
      exact .inr ⟨hne, rfl, rfl⟩
  · rintro (⟨hne, arc, hmem, hs, ht⟩ | ⟨hne, rfl, rfl⟩)
    · exact ⟨hne, arc, List.mem_append_left _ hmem, hs, ht⟩
    · exact ⟨hne, (m, n), List.mem_append_right _ (List.mem_singleton.mpr rfl), hm, hn⟩

lemma Condensation.Condenses.congr {g : Condensation} {arcs' : List (LockNum × LockNum)}
    (h : g.Condenses cs arcs) (same : ∀ s t, Linked cs arcs' s t ↔ Linked cs arcs s t) :
    g.Condenses cs arcs' := by
  refine ⟨h.size, h.nodup, ?_, h.counted.size, ?_⟩
  · intro i l hl j
    rw [same]
    exact h.successors i l hl j
  · intro j hj
    have e : before cs arcs' j = before cs arcs j := by
      ext i
      rw [mem_before, mem_before, same]
    rw [e]
    exact h.counted.count j hj

/-- An arc between two components is taken on. -/
lemma Condensation.Condenses.link {g : Condensation} (h : g.Condenses cs arcs)
    (disjoint : cs.Pairwise List.Disjoint) (hm : Sits cs m i) (hn : Sits cs n j) :
    ∃ g', g.link cs (m, n) = .ok g' ∧ g'.Condenses cs (arcs ++ [(m, n)]) := by
  have linked : ∀ {s t}, Linked cs (arcs ++ [(m, n)]) s t ↔
      Linked cs arcs s t ∨ (i ≠ j ∧ s = i ∧ t = j) := linked_concat disjoint hm hn
  have hi : i < g.successors.length := h.size.symm ▸ hm.lt
  have hj : j < g.inDegree.length := h.counted.size.symm ▸ hn.lt
  unfold Condensation.link
  rw [bind_ok (componentOf_ok disjoint hm), bind_ok (componentOf_ok disjoint hn)]
  by_cases inside : i = j
  · refine ⟨g, if_pos inside, h.congr fun s t => ?_⟩
    rw [linked]
    exact or_iff_left fun e => e.1 inside
  · rw [if_neg inside, bind_ok (item_ok (List.getElem?_eq_getElem hi))]
    have known := h.successors i _ (List.getElem?_eq_getElem hi) j
    by_cases old : Linked cs arcs i j
    · refine ⟨g, if_pos (List.contains_iff_mem.mpr (known.mpr old)), h.congr fun s t => ?_⟩
      rw [linked]
      constructor
      · rintro (hl | ⟨_, rfl, rfl⟩)
        · exact hl
        · exact old
      · exact .inl
    · have new : j ∉ g.successors[i] := fun hmem => old (known.mp hmem)
      rw [if_neg fun hc => new (List.contains_iff_mem.mp hc),
        bind_ok (item_ok (h.counted.count j hn.lt)), bind_ok (setItem_ok hi),
        bind_ok (setItem_ok hj)]
      refine ⟨_, rfl, (List.length_set ..).trans h.size, ?_, ?_, ?_⟩
      · intro l hl
        rcases List.mem_or_eq_of_mem_set hl with hl | rfl
        · exact h.nodup l hl
        · refine List.nodup_append.mpr ⟨h.nodup _ (List.getElem_mem hi), List.nodup_singleton j, ?_⟩
          intro x hx y hy e
          cases List.mem_singleton.mp hy
          exact new (e ▸ hx)
      · intro s l hl t
        rw [linked]
        by_cases e : i = s
        · subst e
          rw [List.getElem?_set_self hi] at hl
          cases hl
          rw [List.mem_append, List.mem_singleton, h.successors i _ (List.getElem?_eq_getElem hi)]
          simp [inside]
        · rw [List.getElem?_set_ne e] at hl
          rw [h.successors s l hl]
          exact (or_iff_left fun k => e k.2.1.symm).symm
      · have counted := h.counted.set (j := j) (s := insert i (before cs arcs j))
          (Finset.card_insert_of_notMem fun hmem => old (mem_before.mp hmem))
        refine ⟨counted.size, fun t ht => ?_⟩
        have e : before cs (arcs ++ [(m, n)]) t =
            Function.update (before cs arcs) j (insert i (before cs arcs j)) t := by
          ext s
          by_cases e : t = j
          · subst e
            rw [Function.update_self, Finset.mem_insert, mem_before, mem_before, linked]
            tauto
          · rw [Function.update_of_ne e, mem_before, mem_before, linked]
            exact or_iff_left fun k => e k.2.2
        rw [e]
        exact counted.count t ht

/-- Arcs among the locks of a section are all taken on. -/
lemma Condensation.Condenses.linkAll (h : Splits p cs)
    {rest : List (LockNum × LockNum)} {g : Condensation} (condenses : g.Condenses cs arcs)
    (inside : ∀ arc ∈ rest, arc.1 ∈ p.locks ∧ arc.2 ∈ p.locks) :
    ∃ g', rest.foldlM (Condensation.link cs) g = .ok g' ∧ g'.Condenses cs (arcs ++ rest) := by
  induction rest generalizing arcs g with
  | nil => exact ⟨g, rfl, (List.append_nil arcs).symm ▸ condenses⟩
  | cons arc rest ih =>
    obtain ⟨⟨hm, hn⟩, inside⟩ := List.forall_mem_cons.mp inside
    obtain ⟨i, hi⟩ := h.exists_sits hm
    obtain ⟨j, hj⟩ := h.exists_sits hn
    obtain ⟨g1, h1, condenses1⟩ := condenses.link h.disjoint hi hj
    obtain ⟨g', hg', condenses'⟩ := ih condenses1 inside
    refine ⟨g', ?_, ?_⟩
    · rw [List.foldlM_cons, bind_ok h1]
      exact hg'
    · rw [List.append_assoc] at condenses'
      exact condenses'

end Interlock.Checked
