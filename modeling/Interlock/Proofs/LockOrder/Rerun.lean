import Interlock.Proofs.Analysis
import Interlock.Proofs.LockOrder.Verdict

/-!
# A second analysis

What a search has repaired stays repaired. The last pass of a search that leaves no deadlock goes
over all requests of the sections, so no locks are opposed in the arena that it leaves
(`Arena.not_opposed_found`), whatever arcs of avoidance locks that pass began with. The second
search begins without any, but a pass that is stopped then has found opposed locks
(`Stopped.opposed`), and the reordering in between permutes locksets, which does not matter to
opposition (`Shuffled.not_opposed`). The second search asks no oracle, since the first made the
targets of all sections known (`Arena.TargetsKnown`).
-/

namespace Interlock

namespace Arena

variable {a b : Arena} {oracle oracle' : Oracle} {config config' : Config} {found : LockSearch}
  {r : Analysis}

lemma Grows.targetsKnown (h : Grows a b) (ha : a.TargetsKnown) : b.TargetsKnown := by
  intro i s hs
  obtain ⟨more, hm⟩ := h.sections i
  rw [hm] at hs
  obtain ⟨u, hu, rfl⟩ := Option.map_eq_some_iff.mp hs
  have known : u.targets.isSome = true := ha hu
  exact known

/-- A search makes all targets known. -/
lemma targetsKnown_found (h : a.searchLocks oracle config = .ok found) :
    found.arena.TargetsKnown := by
  obtain ⟨_, rfl⟩ := searchLocks_eq_ok.mp h
  obtain ⟨k, q, hk, harena, _⟩ :=
    LockSearch.run_walks config config.maxIterations (LockSearch.start a oracle)
  rw [harena]
  exact (LockSearch.grows_after? hk).targetsKnown targetsKnown_ensureAllTargets

/-- A search that leaves no deadlock leaves no opposed locks. -/
lemma not_opposed_found (h : a.searchLocks oracle config = .ok found)
    (free : found.status.isDeadlockFree = true) : ¬ found.arena.Opposed := by
  obtain ⟨_, rfl⟩ := searchLocks_eq_ok.mp h
  obtain ⟨k, q, o, hk, ho, hend⟩ := LockSearch.run_deadlockFree free
  rw [hend]
  exact LockOrder.pass_ok_not_opposed ho

/-- A shuffled arena is covered by the arena before. -/
lemma Shuffled.covered (h : Shuffled a b) : Covered b a := by
  refine ⟨h.locks.symm, ?_⟩
  intro t ht
  obtain ⟨keys, hk, perm⟩ := h.sections t
  obtain ⟨s', hs'⟩ : ∃ s', b.sections[t]? = some s' := ⟨_, List.getElem?_eq_getElem ht⟩
  rw [hs'] at hk
  obtain ⟨s, hs, rfl⟩ := Option.map_eq_some_iff.mp hk.symm
  exact ⟨t, _, s, hs', hs, rfl, rfl, rfl, rfl, perm s hs⟩

/-- Shuffled locksets make no locks opposed. -/
lemma Shuffled.not_opposed (h : Shuffled a b) (known : a.TargetsKnown) (ha : ¬ a.Opposed) :
    ¬ (b.ensureAllTargets oracle).Opposed := by
  intro hb
  have opposed : (a.ensureAllTargets oracle).Opposed := h.covered.ensureAllTargets.opposed hb
  rw [known.ensureAllTargets] at opposed
  exact ha opposed

/-- A search of an arena without opposed locks is over after one pass, and repairs nothing. -/
lemma searchLocks_clean (valid : a.validate = .ok ())
    (clear : ¬ (a.ensureAllTargets oracle).Opposed) (passes : 1 ≤ config.maxIterations) :
    ∃ found, a.searchLocks oracle config = .ok found ∧ found.status = .acyclic ∧
      found.iterations = 1 ∧ found.repairs = [] ∧ found.arena = a.ensureAllTargets oracle := by
  refine ⟨_, searchLocks_eq_ok.mpr ⟨valid, rfl⟩, ?_⟩
  obtain ⟨n, hn⟩ := Nat.exists_eq_add_of_le' passes
  rw [hn, LockSearch.run]
  cases h : LockOrder.pass (LockSearch.start a oracle).arena
    (LockSearch.start a oracle).permanent with
  | ok o => exact ⟨rfl, rfl, rfl, rfl⟩
  | error e => exact absurd (LockOrder.pass_error h).opposed clear

/-- An analysis of locksets that leaves no deadlock leaves an arena that is valid, where all targets
are known and no locks are opposed. -/
lemma analyzed_clear (mode : config.mode = .lockset) (hr : a.analyze oracle config = .ok r)
    (free : r.report.status.isDeadlockFree = true) (oracle' : Oracle) :
    r.arena.validate = .ok () ∧ ¬ (r.arena.ensureAllTargets oracle').Opposed := by
  obtain ⟨found, hf, reports⟩ := exists_found mode hr
  rw [reports.status, Status.isDeadlockFree_map] at free
  have known := targetsKnown_found hf
  have clear := not_opposed_found hf free
  rw [reports.arena, free, Bool.and_true]
  cases config.reorderLocksets with
  | false => exact ⟨validate_eq_ok.mpr (valid_found hf), (Shuffled.refl _).not_opposed known clear⟩
  | true =>
    obtain ⟨_, ⟨valid, shuffled⟩, _⟩ := reorder_found hf free
    exact ⟨validate_eq_ok.mpr valid, shuffled.not_opposed known clear⟩

/-- After an analysis of locksets that leaves no deadlock, with repairs or without, and with
locksets put in order or not, another one finds no deadlock in its first pass. It repairs nothing
and leaves the lock table as it is, whatever its oracle says. -/
theorem analyze_again (mode : config.mode = .lockset) (hr : a.analyze oracle config = .ok r)
    (free : r.report.status.isDeadlockFree = true) (mode' : config'.mode = .lockset)
    (passes : 1 ≤ config'.maxIterations) :
    ∃ r', r.arena.analyze oracle' config' = .ok r' ∧ r'.report.status = .acyclic ∧
      r'.report.iterations = 1 ∧ r'.report.repairs = [] ∧ r'.report.avoidanceLocks = [] ∧
      r'.arena.locks = r.arena.locks := by
  obtain ⟨valid, clear⟩ := analyzed_clear mode hr free oracle'
  obtain ⟨found, hf, status, iterations, repairs, arena⟩ := searchLocks_clean valid clear passes
  obtain ⟨r', hr', reports⟩ := analyze_of_found mode' hf
  have free' : found.status.isDeadlockFree = true := by
    rw [status]
    rfl
  refine ⟨r', hr', ?_, ?_, ?_, ?_, ?_⟩
  · rw [reports.status, status]
    rfl
  · rw [reports.iterations, iterations]
  · rw [reports.repairs, repairs]
    rfl
  · rw [reports.avoidanceLocks, LockSearch.avoidanceLocks, repairs]
    rfl
  · have same : found.arena.locks = r.arena.locks := by
      rw [arena]
      rfl
    rw [reports.arena]
    split
    · exact (reorder_found hf free').2.2.trans same
    · exact same

/-- The crossing sections are repaired and put in order, and a second analysis has nothing to do. -/
theorem analyze_again_crossing :
    ∃ r, crossing.analyze (fun site => [site]) (.ofPreset .repair) = .ok r ∧
      r.report.status = .repaired 2 ∧
      ∃ r', r.arena.analyze (fun site => [site]) {} = .ok r' ∧ r'.report.status = .acyclic ∧
        r'.report.iterations = 1 ∧ r'.report.repairs = [] ∧ r'.report.avoidanceLocks = [] ∧
        r'.arena.locks = r.arena.locks := by
  obtain ⟨r, hr, status⟩ :
      ∃ r, crossing.analyze (fun site => [site]) (.ofPreset .repair) = .ok r ∧
        r.report.status = .repaired 2 := ⟨_, rfl, rfl⟩
  refine ⟨r, hr, status, analyze_again rfl hr ?_ rfl (by decide)⟩
  rw [status]
  rfl

end Arena

end Interlock
