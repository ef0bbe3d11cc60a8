import Interlock.Proofs.Analysis
import Interlock.Proofs.Checked.GroupOrder
import Interlock.Proofs.Checked.LockOrder
import Interlock.Proofs.Checked.Reorder
import Interlock.Proofs.Checked.Report
import Interlock.Proofs.LockOrder.Ring

/-!
# An analysis fails only by validation

A checked analysis is the analysis with all its look-ups, indices and counters, as an edit of the
arena. In a valid arena it goes through in both modes and ends like the analysis. So an analysis
fails exactly where the arena is not valid, with the fault that validation finds, and before
anything is changed (`analyze_answers`).
-/

namespace Interlock

namespace Checked

/-- The report in group mode. -/
def groupReport (a : Arena) (found : GroupFinding) : Except Trap Report := do
  let repairs ← found.merges.mapM (nameGroupConflict a)
  let status ← mapStatus (nameGroupConflict a) found.status
  return {
    mode := .group
    status
    iterations := found.iterations
    repairs
    edges := Arena.groupArcs found.order
    avoidanceLocks := []
    reorderedSections := 0
    locksets := ← sectionLocks a }

/-- The analysis in group mode. -/
def analyzeGroups (oracle : Oracle) (config : Config) : Edit Report := do
  let found ← detectGroups oracle config
  read (groupReport · found)

/-- The report in lockset mode. -/
def lockReport (a : Arena) (found : LockFinding) (reordered : Nat) : Except Trap Report := do
  let edges ← lockArcs a found.order
  let avoidanceLocks ← (found.repairs.filterMap (·.avoidanceLock)).mapM (heldLock a)
  let repairs ← found.repairs.mapM (nameLockConflict a)
  let status ← mapStatus (nameLockConflict a) found.status
  return {
    mode := .lockset
    status
    iterations := found.iterations
    repairs
    edges
    avoidanceLocks
    reorderedSections := reordered
    locksets := ← sectionLocks a }

/-- The analysis in lockset mode. -/
def analyzeLocksets (scc : Clustering) (oracle : Oracle) (config : Config) : Edit Report := do
  let found ← detectLocks oracle config
  let reordered ←
    if config.reorderLocksets && found.status.isDeadlockFree then reorder scc found.order
    else pure 0
  read (lockReport · found reordered)

/-- The analysis of an arena. -/
def analyze (scc : Clustering) (oracle : Oracle) (config : Config) : Edit Report := do
  ask (·.validate)
  match config.mode with
  | .group => analyzeGroups oracle config
  | .lockset => analyzeLocksets scc oracle config

variable {scc : Clustering} {a : Arena}

lemma analyzeGroups_ok (valid : a.validate = .ok ()) (oracle : Oracle) (config : Config) :
    ∃ r, a.analyzeGroups oracle config = .ok r ∧
      analyzeGroups oracle config a = .ok r.report r.arena ∧ r.arena.Valid := by
  obtain ⟨found, hf, traceable, detected⟩ := detectGroups_ok oracle config valid
  have named : ∀ c, Present found.arena c →
      nameGroupConflict found.arena c = .ok (found.arena.nameGroupConflict c) := by
    rintro c ⟨ho, hi⟩
    obtain ⟨s, hs⟩ := Option.isSome_iff_exists.mp ho
    obtain ⟨u, hu⟩ := Option.isSome_iff_exists.mp hi
    exact nameConflict_ok ⟨s, Arena.section?_eq_ok.mpr hs⟩ ⟨u, Arena.section?_eq_ok.mpr hu⟩
  have merges : found.merges.mapM (nameGroupConflict found.arena) =
      .ok (found.merges.map found.arena.nameGroupConflict) :=
    mapM_ok fun c hc => named c (traceable.merges c hc)
  have status : mapStatus (nameGroupConflict found.arena) found.status =
      .ok (found.status.map found.arena.nameGroupConflict) :=
    mapStatus_ok fun c hc => named c (traceable.conflict c hc)
  refine ⟨_, bind_ok hf, (bind_edit detected).trans (read_ok ?_), traceable.valid⟩
  exact (bind_ok merges).trans ((bind_ok status).trans (bind_ok (sectionLocks_ok traceable.valid)))

lemma lockReport_ok {found : LockSearch} {changed : Nat} (valid : a.Valid)
    (order : found.order.LabelsGrouped a) (repairs : ∀ c ∈ found.repairs, Located a c)
    (conflict : ∀ c, conflict? found.status = some c → Located a c) :
    lockReport a (.of found) changed = .ok {
      mode := .lockset
      status := found.status.map a.nameLockConflict
      iterations := found.iterations
      repairs := found.repairs.map a.nameLockConflict
      edges := a.lockArcs found.order
      avoidanceLocks := found.avoidanceLocks.map a.heldLock
      reorderedSections := changed
      locksets := a.sectionLocks } := by
  have named : ∀ c, Located a c → nameLockConflict a c = .ok (a.nameLockConflict c) := fun c h =>
    nameConflict_ok (exists_of_grouped h.1) (exists_of_grouped h.2)
  have avoidance : found.avoidanceLocks.mapM (heldLock a) =
      .ok (found.avoidanceLocks.map a.heldLock) :=
    mapM_ok fun lock _ => heldLock_ok valid
  have names : found.repairs.mapM (nameLockConflict a) =
      .ok (found.repairs.map a.nameLockConflict) :=
    mapM_ok fun c hc => named c (repairs c hc)
  have status : mapStatus (nameLockConflict a) found.status =
      .ok (found.status.map a.nameLockConflict) := mapStatus_ok fun c hc => named c (conflict c hc)
  exact (bind_ok (lockArcs_ok order)).trans ((bind_ok avoidance).trans ((bind_ok names).trans
    ((bind_ok status).trans (bind_ok (sectionLocks_ok valid)))))

lemma analyzeLocksets_ok (exact : scc.Exact) (valid : a.validate = .ok ()) (oracle : Oracle)
    (config : Config) : ∃ r, a.analyzeLocksets oracle config = .ok r ∧
      analyzeLocksets scc oracle config a = .ok r.report r.arena ∧ r.arena.Valid := by
  obtain ⟨found, hf, traceable, detected⟩ := detectLocks_ok oracle config valid
  by_cases asked : (config.reorderLocksets && found.status.isDeadlockFree) = true
  · obtain ⟨clear, valid', _⟩ := traceable.valid.reorder (o := found.order)
    -- a reordering moves no lock out of its section, so what the search has found stays located
    have shuffled := Arena.Shuffled.of_reorder clear
    have located : ∀ c, Located found.arena c →
        Located (found.arena.reorder found.order).arena c := fun c h =>
      ⟨shuffled.mem_groupedSections.mpr h.1, shuffled.mem_groupedSections.mpr h.2⟩
    have model : ∃ r, a.analyzeLocksets oracle config = .ok r ∧
        r.arena = (found.arena.reorder found.order).arena ∧
        lockReport r.arena (.of found) (found.arena.reorder found.order).changed =
          .ok r.report := by
      unfold Arena.analyzeLocksets
      rw [bind_ok hf]
      simp only [asked, if_true, clear]
      exact ⟨_, rfl, rfl, lockReport_ok valid' (shuffled.labelsGrouped traceable.order)
        (fun c hc => located c (traceable.repairs c hc))
        (fun c hc => located c (traceable.conflict c hc))⟩
    obtain ⟨r, hr, arena, report⟩ := model
    have reordered := reorder_ok (o := found.order) exact traceable.valid
    rw [← arena] at reordered valid'
    refine ⟨r, hr, ?_, valid'⟩
    unfold analyzeLocksets
    rw [bind_edit detected, LockFinding.of, if_pos asked, bind_edit reordered]
    exact read_ok report
  · have model : ∃ r, a.analyzeLocksets oracle config = .ok r ∧ r.arena = found.arena ∧
        lockReport r.arena (.of found) 0 = .ok r.report := by
      unfold Arena.analyzeLocksets
      rw [bind_ok hf]
      simp only [asked]
      exact ⟨_, rfl, rfl, lockReport_ok traceable.valid traceable.order traceable.repairs
        traceable.conflict⟩
    obtain ⟨r, hr, arena, report⟩ := model
    refine ⟨r, hr, ?_, arena ▸ traceable.valid⟩
    unfold analyzeLocksets
    rw [bind_edit detected, ← arena, LockFinding.of, if_neg asked]
    exact read_ok (f := (lockReport · (.of found) 0)) report

/-- An analysis goes through in a valid arena, with all its checks, and leaves a valid one. -/
lemma analyze_ok (exact : scc.Exact) (valid : a.validate = .ok ()) (oracle : Oracle)
    (config : Config) : ∃ r, a.analyze oracle config = .ok r ∧
      analyze scc oracle config a = .ok r.report r.arena ∧ r.arena.Valid := by
  cases mode : config.mode with
  | group =>
    obtain ⟨r, hr, checked, valid'⟩ := analyzeGroups_ok valid oracle config
    refine ⟨{ r with log := r.log ++ [Arena.finished r.report] }, ?_, ?_, valid'⟩
    · rw [Arena.analyze, bind_ok valid, mode]
      exact bind_ok hr
    · rw [analyze, bind_edit (ask_ok valid), mode]
      exact checked
  | lockset =>
    obtain ⟨r, hr, checked, valid'⟩ := analyzeLocksets_ok exact valid oracle config
    refine ⟨{ r with log := r.log ++ [Arena.finished r.report] }, ?_, ?_, valid'⟩
    · rw [Arena.analyze, bind_ok valid, mode]
      exact bind_ok hr
    · rw [analyze, bind_edit (ask_ok valid), mode]
      exact checked

/-- A checked analysis of an arena that is not valid stops before anything is changed. -/
lemma analyze_stops {f : Fault} (h : a.validate = .error f) :
    analyze scc oracle config a = .error (.fault f) a := by
  have stops : ask (·.validate) a = .error (.fault f) a := by
    rw [ask, read, h]
    rfl
  show EStateM.bind _ _ a = _
  rw [EStateM.bind, stops]

end Checked

/-- The answers of an analysis are those of validation: its fault with nothing changed, or a
report. -/
structure Arena.Answers (a : Arena) (scc : Checked.Clustering) (oracle : Oracle) (config : Config) :
    Prop where
  fails : ∀ f, a.analyze oracle config = .error f ↔ a.validate = .error f
  /-- An analysis that fails leaves the arena as it is. -/
  unchanged : ∀ f, a.validate = .error f →
    Checked.analyze scc oracle config a = .error (.fault f) a ∧
      ∀ calls, ((Program.mk a calls).analyze config).1.arena = a
  /-- No look-up, index or counter goes wrong on the way to a report, and the arena is valid after
  it. -/
  reports : a.validate = .ok () → ∃ r, a.analyze oracle config = .ok r ∧
    Checked.analyze scc oracle config a = .ok r.report r.arena ∧ r.arena.validate = .ok ()

namespace Arena

/-- An analysis of any arena fails only by validation. -/
theorem analyze_answers {scc : Checked.Clustering} (exact : scc.Exact) (a : Arena) (oracle : Oracle)
    (config : Config) : a.Answers scc oracle config := by
  have refused : ∀ {oracle f}, a.validate = .error f → a.analyze oracle config = .error f := by
    intro oracle f h
    unfold analyze
    rw [h]
    rfl
  constructor
  case fails =>
    intro f
    cases h : a.validate with
    | error g => rw [refused h, Except.error.injEq, Except.error.injEq]
    | ok _ =>
      obtain ⟨r, hr, _⟩ := Checked.analyze_ok exact h oracle config
      rw [hr]
      exact ⟨nofun, nofun⟩
  case unchanged =>
    intro f h
    refine ⟨Checked.analyze_stops h, fun calls => ?_⟩
    simp only [Program.analyze, refused h]
  case reports =>
    intro valid
    obtain ⟨r, hr, checked, valid'⟩ := Checked.analyze_ok exact valid oracle config
    exact ⟨r, hr, checked, validate_eq_ok.mpr valid'⟩

/-- The crossing sections are repaired and put in order with no fault. Without their group they are
not analyzed. -/
theorem analyze_answers_crossing :
    (∃ r, crossing.analyze (fun site => [site]) (.ofPreset .repair) = .ok r ∧
      Checked.analyze .byLeader (fun site => [site]) (.ofPreset .repair) crossing =
        .ok r.report r.arena ∧
      r.report.status = .repaired 2 ∧ r.arena.validate = .ok ()) ∧
    { crossing with groups := [] }.analyze (fun site => [site]) (.ofPreset .repair) =
      .error (.unknownGroup 0) := by
  have answers := analyze_answers Checked.Clustering.byLeader_exact
  constructor
  · obtain ⟨r, hr, checked, valid⟩ :=
      (answers crossing (fun site => [site]) (.ofPreset .repair)).reports rfl
    obtain ⟨r', hr', status⟩ :
        ∃ r, crossing.analyze (fun site => [site]) (.ofPreset .repair) = .ok r ∧
          r.report.status = .repaired 2 := ⟨_, rfl, rfl⟩
    rw [hr] at hr'
    cases hr'
    exact ⟨r, hr, checked, status, valid⟩
  · exact ((answers _ _ _).fails _).mpr rfl

end Arena

end Interlock
