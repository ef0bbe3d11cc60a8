import Interlock.Analysis
import Interlock.Proofs.LockOrder.Upkeep

/-!
# What an analysis of locksets reports

`Analysis.Reports` says what the report and the arena of an analysis of locksets are, given what the
search has found. An analysis of a valid arena reports its search (`Arena.exists_found`): the search
meets no fault, and neither does the reordering that may follow it.
-/

namespace Interlock

/-- The report and the arena of an analysis of locksets are those of the search. -/
structure Analysis.Reports (r : Analysis) (config : Config) (found : LockSearch) : Prop where
  status : r.report.status = found.status.map r.arena.nameLockConflict
  iterations : r.report.iterations = found.iterations
  repairs : r.report.repairs = found.repairs.map r.arena.nameLockConflict
  avoidanceLocks : r.report.avoidanceLocks = found.avoidanceLocks.map r.arena.heldLock
  reordered : r.report.reorderedSections = if config.reorderLocksets && found.status.isDeadlockFree
    then (found.arena.reorder found.order).changed else 0
  /-- The locksets are put in order where that is asked for and no deadlock is left. -/
  arena : r.arena = if config.reorderLocksets && found.status.isDeadlockFree
    then (found.arena.reorder found.order).arena else found.arena

namespace Arena

variable {a : Arena} {oracle : Oracle} {config : Config} {found : LockSearch} {r : Analysis}

/-- A reordering after a search that leaves no deadlock meets no fault, and puts the locksets in
order. -/
lemma reorder_found (hf : a.searchLocks oracle config = .ok found)
    (free : found.status.isDeadlockFree = true) :
    (found.arena.reorder found.order).fault = none ∧
      ((found.arena.reorder found.order).arena.Valid ∧
        found.arena.Reordered found.order (found.arena.reorder found.order).arena) ∧
      (found.arena.reorder found.order).arena.locks = found.arena.locks := by
  obtain ⟨fault, valid, locks⟩ := (valid_found hf).reorder (o := found.order)
  exact ⟨fault, ⟨valid, reorder_shuffled (clean_of_deadlockFree hf free).grouped fault⟩, locks⟩

/-- An analysis reports what its search finds. -/
lemma analyze_of_found (mode : config.mode = .lockset)
    (hf : a.searchLocks oracle config = .ok found) :
    ∃ r, a.analyze oracle config = .ok r ∧ r.Reports config found := by
  obtain ⟨valid, _⟩ := searchLocks_eq_ok.mp hf
  have search : ∃ r, a.analyzeLocksets oracle config = .ok r ∧ r.Reports config found := by
    unfold analyzeLocksets
    rw [hf]
    dsimp only [bind, Except.bind]
    cases hc : config.reorderLocksets && found.status.isDeadlockFree with
    | false =>
      refine ⟨_, rfl, rfl, rfl, rfl, rfl, ?_, ?_⟩
      · rw [hc]
        rfl
      · rw [hc]
        rfl
    | true =>
      obtain ⟨clear, _⟩ := reorder_found hf (Bool.and_eq_true_iff.mp hc).2
      rw [if_pos rfl, clear]
      refine ⟨_, rfl, rfl, rfl, rfl, rfl, ?_, ?_⟩
      · rw [hc]
        rfl
      · rw [hc]
        rfl
  obtain ⟨r, hr, reports⟩ := search
  refine ⟨{ r with log := r.log ++ [finished r.report] }, ?_,
    reports.status, reports.iterations, reports.repairs, reports.avoidanceLocks, reports.reordered,
    reports.arena⟩
  unfold analyze
  rw [valid, mode]
  dsimp only [bind, Except.bind]
  rw [hr]
  rfl

/-- An analysis that goes through has found what it reports. -/
theorem exists_found (mode : config.mode = .lockset) (hr : a.analyze oracle config = .ok r) :
    ∃ found, a.searchLocks oracle config = .ok found ∧ r.Reports config found := by
  obtain ⟨_, valid, _⟩ := bind_eq_ok.mp hr
  have hf : a.searchLocks oracle config = .ok _ := searchLocks_eq_ok.mpr ⟨valid, rfl⟩
  obtain ⟨r', hr', reports⟩ := analyze_of_found mode hf
  rw [hr] at hr'
  cases hr'
  exact ⟨_, hf, reports⟩

end Arena

end Interlock
