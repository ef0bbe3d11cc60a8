import Interlock.Proofs.GroupOrder.Verdict

/-!
# The two ways to keep reachability

After any arcs, taken on in any order and as often as may be, both ways answer whether a path of
these arcs leads from one node to another (`Reach.ofArcs_exact`), and a closure lists what a node
reaches, each node once. A pass asks nothing else of them, so two passes that keep it in different
ways go on alike (`takeAll_alike`), and so do two searches: they answer the same and leave the same
arena (`reachability_interchangeable`).
-/

namespace Interlock

open Relation (TransGen)

section Reach

variable {α : Type} [Ranked α] [DecidableEq α] {arcs : List (α × α)} {x y : α}

/-- Reachability after some arcs, in the order in which they are taken on. -/
def Reach.ofArcs (s : Strategy) (arcs : List (α × α)) : Reach α :=
  arcs.foldl (fun r arc => r.insert arc.1 arc.2) (.empty s)

/-- A closure after some arcs, in the order in which they are taken on. -/
def Closure.ofArcs (arcs : List (α × α)) : Closure α :=
  arcs.foldl (fun c arc => c.insert arc.1 arc.2) {}

/-- The answers are those of the arcs that were there and the ones that are taken on. -/
lemma Reach.Exact.insertAll {r : Reach α} {R : α → α → Prop} (h : r.Exact R)
    (arcs : List (α × α)) :
    (arcs.foldl (fun r arc => r.insert arc.1 arc.2) r).Exact fun x y => (x, y) ∈ arcs ∨ R x y := by
  induction arcs generalizing r R with
  | nil => simpa using h
  | cons arc rest ih =>
    have more := ih (r := r.insert arc.1 arc.2) h.insert
    have same : (fun x y => (x, y) ∈ arc :: rest ∨ R x y) =
        fun x y => (x, y) ∈ rest ∨ WithArc R arc.1 arc.2 x y := by
      funext x y
      simp only [List.mem_cons, WithArc, Prod.ext_iff, eq_iff_iff]
      tauto
    rw [same]
    exact more

/-- Either way the answers are the paths of the arcs. -/
theorem Reach.ofArcs_exact (s : Strategy) (arcs : List (α × α)) :
    (Reach.ofArcs s arcs).Exact fun x y => (x, y) ∈ arcs := by
  intro x y
  have exact := (exact_empty (s := s)).insertAll arcs x y
  rwa [show (fun x y => (x, y) ∈ arcs ∨ False) = fun x y => (x, y) ∈ arcs by simp] at exact

lemma Reach.ofArcs_closure :
    Reach.ofArcs .transitiveClosure arcs = .closure (Closure.ofArcs arcs) := by
  have alike : ∀ c : Closure α, arcs.foldl (fun r arc => r.insert arc.1 arc.2) (Reach.closure c) =
      .closure (arcs.foldl (fun c arc => c.insert arc.1 arc.2) c) := by
    induction arcs with
    | nil => exact fun _ => rfl
    | cons arc rest ih => exact fun c => ih (c.insert arc.1 arc.2)
  exact alike {}

/-- A closure lists what a node reaches. -/
lemma Closure.mem_reachableFrom {c : Closure α} : y ∈ c.reachableFrom x ↔ c.reaches x y = true := by
  rw [reaches, SortedSet.contains_eq_true]
  exact Digraph.mem_seconds

/-- A closure lists nothing twice. -/
lemma Closure.nodup_reachableFrom {c : Closure α} : (c.reachableFrom x).Nodup := by
  have pairs : c.pairs.toList.Nodup := by
    refine c.pairs.sorted.imp ?_
    rintro p _ before rfl
    rw [Ranked.irrefl] at before
    cases before
  refine pairs.filterMap ?_
  rintro ⟨u, v⟩ ⟨u', v'⟩ w hw hw'
  simp only [Option.mem_def, Option.ite_none_right_eq_some, Option.some.injEq] at hw hw'
  obtain ⟨rfl, rfl⟩ := hw
  obtain ⟨rfl, rfl⟩ := hw'
  rfl

end Reach

namespace GroupSearch

variable {a : Arena} {config : Config} {s : Strategy} {g h : Growing} {p : Progress} {n : Nat}
  {pair : LockedSection × LockedSection} {ps : List (LockedSection × LockedSection)}

/-- Two orders are the same, and so are the answers on them. -/
structure Growing.Alike (g h : Growing) : Prop where
  order : g.order = h.order
  reaches : ∀ x y, g.reach.reaches x y = h.reach.reaches x y

/-- With one more arc they are still the same. -/
lemma Growing.Alike.taking (e : g.Alike h) : (g.taking pair).Alike (h.taking pair) := by
  constructor
  · rw [Growing.taking, Growing.taking, e.order]
  · intro x y
    rw [Bool.eq_iff_iff, Growing.taking, Growing.taking, Reach.reaches_insert, Reach.reaches_insert]
    simp only [e.reaches]

/-- Pairs are refused alike, and taken on alike. -/
lemma takeAll_alike (e : g.Alike h) :
    (ps.foldlM takePair g).map (·.order) = (ps.foldlM takePair h).map (·.order) := by
  induction ps generalizing g h with
  | nil => exact congrArg Except.ok e.order
  | cons pair rest ih =>
    rw [List.foldlM_cons, List.foldlM_cons, takePair_eq, takePair_eq, e.reaches, e.order]
    split
    · rfl
    · exact ih e.taking

/-- A pass does not depend on how reachability is kept. -/
lemma pass_reachability : pass a { config with reachability := s } = pass a config := by
  have start : (passStart a { config with reachability := s }).Alike (passStart a config) := by
    refine ⟨rfl, fun x y => ?_⟩
    rw [passStart, passStart, Reach.reaches_empty, Reach.reaches_empty]
  exact takeAll_alike start

/-- A run does not depend on how reachability is kept. -/
lemma run_reachability : run { config with reachability := s } n p = run config n p := by
  induction n generalizing p with
  | zero => rfl
  | succ n ih =>
    unfold run
    rw [pass_reachability]
    simp only [ih]
    rfl

end GroupSearch

/-- Both ways to keep reachability answer by the paths of the arcs that were taken on, and a closure
lists what a node reaches, each node once. A search for deadlocks between groups does not depend on
the way. -/
theorem reachability_interchangeable :
    (∀ {α : Type} [Ranked α] [DecidableEq α] (arcs : List (α × α)) (x y : α),
      (∀ s, (Reach.ofArcs s arcs).reaches x y = true ↔ TransGen (fun x y => (x, y) ∈ arcs) x y) ∧
      ((Closure.ofArcs arcs).reachableFrom x).Nodup ∧
      (y ∈ (Closure.ofArcs arcs).reachableFrom x ↔ TransGen (fun x y => (x, y) ∈ arcs) x y)) ∧
    ∀ (a : Arena) (oracle : Oracle) (config : Config) (s t : Strategy),
      a.searchGroups oracle { config with reachability := s } =
        a.searchGroups oracle { config with reachability := t } := by
  constructor
  · intro α _ _ arcs x y
    refine ⟨fun s => Reach.ofArcs_exact s arcs x y, Closure.nodup_reachableFrom, ?_⟩
    have exact := Reach.ofArcs_exact .transitiveClosure arcs x y
    rw [Reach.ofArcs_closure] at exact
    rw [Closure.mem_reachableFrom]
    exact exact
  · intro a oracle config s t
    simp only [Arena.searchGroups, GroupSearch.run_reachability]

end Interlock
