import Interlock.Proofs.LockOrder.Repair

/-!
# Runs of the search on locks

A search with repair goes from state to state, a repair at a time, as long as a pass meets a
conflict. `Progress.next?` is one such step, and `Progress.after?` a number of them; neither knows
of a bound on passes. `run_repairing` says that a run with repair is the longest such walk that its
bound permits, and `run_deadlockFree` where a run ends that leaves no deadlock. What every repair
keeps holds at the end of a walk (`after?_induction`).
-/

namespace Interlock

namespace LockSearch

variable {config : Config} {p q : Progress} {k n : Nat} {o : LockOrder} {c : LockConflict}

/-- The state after one more repair; there is none where a pass meets no conflict. -/
def Progress.next? (p : Progress) : Option Progress :=
  match LockOrder.pass p.arena p.permanent with
  | .ok _ => none
  | .error (o, c) => some (p.repaired o c)

/-- The state after a number of repairs. -/
def Progress.after? (p : Progress) : Nat → Option Progress
  | 0 => some p
  | k + 1 => p.next?.bind (·.after? k)

/-- A step repairs the conflict that a pass met. -/
lemma next?_eq_some :
    p.next? = some q ↔ ∃ o c, LockOrder.pass p.arena p.permanent = .error (o, c) ∧
      q = p.repaired o c := by
  unfold Progress.next?
  cases LockOrder.pass p.arena p.permanent with
  | ok o => simp
  | error e => simp [Prod.ext_iff, eq_comm]

/-- What each repair keeps holds after any number of repairs. -/
lemma after?_induction {P : Progress → Prop} (hp : P p)
    (step : ∀ {p o c}, P p → LockOrder.Stopped p.arena p.permanent o c → P (p.repaired o c))
    (h : p.after? k = some q) : P q := by
  induction k generalizing p with
  | zero =>
    cases h
    exact hp
  | succ k ih =>
    obtain ⟨p1, h1, hk⟩ := Option.bind_eq_some_iff.mp h
    obtain ⟨o, c, he, rfl⟩ := next?_eq_some.mp h1
    exact ih (step hp (LockOrder.pass_error he)) hk

/-- An arena grows with any number of repairs. -/
lemma grows_after? (h : p.after? k = some q) : p.arena.Grows q.arena :=
  after?_induction (P := fun q => p.arena.Grows q.arena) (.refl _)
    (fun hp _ => hp.trans grows_repaired) h

/-- Each repair is recorded. -/
lemma length_repairs_after? (h : p.after? k = some q) :
    q.repairs.length = p.repairs.length + k := by
  induction k generalizing p with
  | zero =>
    cases h
    rfl
  | succ k ih =>
    obtain ⟨p1, h1, hk⟩ := Option.bind_eq_some_iff.mp h
    obtain ⟨o, c, _, rfl⟩ := next?_eq_some.mp h1
    rw [ih hk, repairs_repaired, List.length_append, List.length_singleton]
    omega

/-- The last of a number of repairs is one more step. -/
lemma after?_succ : p.after? (k + 1) = (p.after? k).bind (·.next?) := by
  induction k generalizing p with
  | zero => exact Option.bind_fun_some p.next?
  | succ k ih =>
    rw [Progress.after?]
    cases h : p.next? with
    | none =>
      rw [Progress.after?, h]
      rfl
    | some p1 =>
      rw [Progress.after?, h]
      exact ih

/-- A run with repair makes repairs until a pass meets no conflict or the passes are used up. -/
theorem run_repairing (hr : config.repair = true) :
    ∃ k q, p.after? k = some q ∧
      ((k < n ∧ ∃ o, LockOrder.pass q.arena q.permanent = .ok o ∧ run config n p = q.finish o) ∨
        (k = n ∧ run config n p = q.giveUp config.maxIterations)) := by
  induction n generalizing p with
  | zero => exact ⟨0, p, rfl, .inr ⟨rfl, rfl⟩⟩
  | succ n ih =>
    unfold run
    cases h : LockOrder.pass p.arena p.permanent with
    | ok o => exact ⟨0, p, rfl, .inl ⟨Nat.succ_pos n, o, h, rfl⟩⟩
    | error e =>
      obtain ⟨o, c⟩ := e
      simp only [hr, if_true]
      have h1 : p.next? = some (p.repaired o c) := next?_eq_some.mpr ⟨o, c, h, rfl⟩
      obtain ⟨k, q, hk, hend⟩ := ih (p := p.repaired o c)
      refine ⟨k + 1, q, ?_, ?_⟩
      · rw [Progress.after?, h1]
        exact hk
      · rcases hend with ⟨hlt, hend⟩ | ⟨rfl, hend⟩
        · exact .inl ⟨Nat.succ_lt_succ hlt, hend⟩
        · exact .inr ⟨rfl, hend⟩

/-- A run without repair is over after one pass. -/
theorem run_reporting (hr : config.repair = false) :
    run config (n + 1) p =
      match LockOrder.pass p.arena p.permanent with
      | .ok o => p.finish o
      | .error (o, c) => p.report o c := by
  unfold run
  rw [hr]
  rfl

/-- A run that leaves no deadlock ends with a pass that met no conflict. -/
theorem run_deadlockFree (free : (run config n p).status.isDeadlockFree = true) :
    ∃ k q o, p.after? k = some q ∧ LockOrder.pass q.arena q.permanent = .ok o ∧
      run config n p = q.finish o := by
  cases hr : config.repair with
  | true =>
    obtain ⟨k, q, hk, ⟨_, o, ho, hend⟩ | ⟨_, hend⟩⟩ := run_repairing (p := p) (n := n) hr
    · exact ⟨k, q, o, hk, ho, hend⟩
    · rw [hend] at free
      cases free
  | false =>
    cases n with
    | zero => cases free
    | succ n =>
      rw [run_reporting hr] at free ⊢
      cases h : LockOrder.pass p.arena p.permanent with
      | ok o => exact ⟨0, p, o, rfl, h, rfl⟩
      | error e =>
        rw [h] at free
        cases free

/-- Wherever a run ends, it leaves the arena and the repairs of a walk. -/
theorem run_walks (config : Config) (n : Nat) (p : Progress) :
    ∃ k q, p.after? k = some q ∧ (run config n p).arena = q.arena ∧
      (run config n p).repairs = q.repairs := by
  cases hr : config.repair with
  | true =>
    obtain ⟨k, q, hk, ⟨_, o, _, hend⟩ | ⟨_, hend⟩⟩ := run_repairing (p := p) (n := n) hr
    · rw [hend]
      exact ⟨k, q, hk, rfl, rfl⟩
    · rw [hend]
      exact ⟨k, q, hk, rfl, rfl⟩
  | false =>
    refine ⟨0, p, rfl, ?_⟩
    cases n with
    | zero => exact ⟨rfl, rfl⟩
    | succ n =>
      rw [run_reporting hr]
      cases LockOrder.pass p.arena p.permanent with
      | ok o => exact ⟨rfl, rfl⟩
      | error e => exact ⟨rfl, rfl⟩

/-- The state in which a search begins. -/
def start (a : Arena) (oracle : Oracle) : Progress := { arena := a.ensureAllTargets oracle }

@[simp] lemma mem_groupedSections_start {a : Arena} {oracle : Oracle} {t : SectionId} :
    t ∈ (start a oracle).arena.groupedSections ↔ t ∈ a.groupedSections := by
  show t ∈ (a.ensureAllTargets oracle).groupedSections ↔ _
  rw [Arena.groupedSections_ensureAllTargets]

lemma grounded_start {a : Arena} {oracle : Oracle} : (start a oracle).Grounded := by
  intro x y t h
  exact absurd h LockOrder.not_labelled_empty

/-- The permanent arcs stay grounded. -/
lemma grounded_after? {a : Arena} {oracle : Oracle} (h : (start a oracle).after? k = some q) :
    q.Grounded :=
  after?_induction grounded_start Progress.Grounded.repaired h

end LockSearch

/-- A search of a valid arena is a run, and a search of another one fails. -/
theorem Arena.searchLocks_eq_ok {a : Arena} {oracle : Oracle} {config : Config} {s : LockSearch} :
    a.searchLocks oracle config = .ok s ↔
      a.validate = .ok () ∧
        s = LockSearch.run config config.maxIterations (LockSearch.start a oracle) := by
  unfold searchLocks
  cases a.validate with
  | error f =>
    constructor
    · intro h
      cases h
    · rintro ⟨h, _⟩
      cases h
  | ok u =>
    constructor
    · intro h
      cases h
      exact ⟨rfl, rfl⟩
    · rintro ⟨_, rfl⟩
      rfl

/-- A search leaves the grouped sections. -/
lemma Arena.mem_groupedSections_found {a : Arena} {oracle : Oracle} {config : Config}
    {s : LockSearch} {t : SectionId} (h : a.searchLocks oracle config = .ok s) :
    t ∈ s.arena.groupedSections ↔ t ∈ a.groupedSections := by
  obtain ⟨_, rfl⟩ := searchLocks_eq_ok.mp h
  obtain ⟨k, q, hk, harena, _⟩ :=
    LockSearch.run_walks config config.maxIterations (LockSearch.start a oracle)
  rw [harena, (LockSearch.grows_after? hk).mem_groupedSections,
    LockSearch.mem_groupedSections_start]

/-- What a search leaves that leaves no deadlock. -/
structure LockSearch.Clean (s : LockSearch) : Prop where
  /-- Every arc of a grouped section is there. -/
  complete : ∀ ⦃x y t⦄, x ≠ y → s.arena.Orders t x y → s.order.Labelled x y t
  /-- There are these arcs, and arcs from avoidance locks between two locks of their label. -/
  sound : ∀ ⦃x y t⦄, s.order.Labelled x y t →
    (x ≠ y ∧ s.arena.Orders t x y) ∨
      (x ∈ s.avoidanceLocks ∧ x ∈ s.arena.held t ∧ y ∈ s.arena.held t)
  /-- Arcs are justified by grouped sections. -/
  grouped : ∀ ⦃x y t⦄, s.order.Labelled x y t → t ∈ s.arena.groupedSections
  /-- Opposed arcs are settled if all avoidance locks are static. -/
  settled : (∀ n ∈ s.avoidanceLocks, n.isStatic = true) → LockOrder.Settled s.arena s.order

lemma LockSearch.mem_avoidanceLocks {s : LockSearch} {n : LockNum} :
    n ∈ s.avoidanceLocks ↔ ∃ c ∈ s.repairs, c.avoidanceLock = some n :=
  List.mem_filterMap

/-- A search that leaves no deadlock leaves a clean order. Two opposed arcs that are both permanent
are not judged by any pass; they are settled by the avoidance locks themselves. -/
theorem Arena.clean_of_deadlockFree {a : Arena} {oracle : Oracle} {config : Config} {s : LockSearch}
    (h : a.searchLocks oracle config = .ok s)
    (free : s.status.isDeadlockFree = true) : s.Clean := by
  obtain ⟨_, rfl⟩ := searchLocks_eq_ok.mp h
  obtain ⟨k, q, o, hk, ho, hend⟩ := LockSearch.run_deadlockFree free
  have grounded := LockSearch.grounded_after? hk
  rw [hend]
  constructor
  · intro x y t hne hord
    exact (LockOrder.pass_ok ho).mpr (.inr ⟨hne, hord⟩)
  · intro x y t hl
    rcases (LockOrder.pass_ok ho).mp hl with hp | hord
    · obtain ⟨_, hx, hy, hc⟩ := grounded hp
      exact .inr ⟨LockSearch.mem_avoidanceLocks.mpr hc, hx, hy⟩
    · exact .inl hord
  · intro x y t hl
    rcases (LockOrder.pass_ok ho).mp hl with hp | ⟨_, hord⟩
    · exact (grounded hp).1
    · exact hord.1
  · intro static
    apply LockOrder.pass_settled _ ho
    -- both labels of opposed permanent arcs hold the avoidance lock `x`
    intro x y t u hxy hyx
    obtain ⟨_, hx, _, hc⟩ := grounded hxy
    obtain ⟨_, _, hx', _⟩ := grounded hyx
    exact Arena.excludes_iff.mpr ⟨x, static x (LockSearch.mem_avoidanceLocks.mpr hc), hx, hx'⟩

end Interlock
