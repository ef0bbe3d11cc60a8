import Interlock.Proofs.Checked.Analysis
import Interlock.Proofs.GroupOrder.Verdict
import Interlock.Proofs.Program.Build

/-!
# Analyses that only detect

An analysis that neither repairs nor reorders leaves an arena as it was, with the targets of all
sections made known (`Arena.arena_of_detecting`). A built program knows no targets
(`Model.fresh_of_build`), so these are what its call graph says under the exclusions of the
analysis.

Calls matter to an analysis only by the targets that they make known (`Arena.analyze_known`), and
exclusions only by the calls (`Arena.analyze_excluded`). So a later analysis answers as one of a
fresh program would, under the exclusions of the first (`Program.analyze_transparent`).
-/

namespace Interlock

section Detecting

variable {a : Arena} {oracle calls : Oracle} {config : Config} {names : List String} {n : Nat}

lemma GroupSearch.arena_of_detecting {p : Progress} {s : GroupSearch} (hr : config.repair = false)
    (h : run config n p = .ok s) : s.arena = p.arena := by
  cases n with
  | zero =>
    cases h
    rfl
  | succ n =>
    unfold run at h
    cases hp : pass p.arena config with
    | ok o =>
      rw [hp] at h
      cases h
      rfl
    | error e =>
      rw [hp, hr] at h
      cases h
      rfl

lemma LockSearch.arena_of_detecting {p : Progress} (hr : config.repair = false) :
    (run config n p).arena = p.arena := by
  cases n with
  | zero => rfl
  | succ n =>
    rw [run_reporting hr]
    cases LockOrder.pass p.arena p.permanent with
    | ok o => rfl
    | error e => rfl

lemma GroupSearch.run_excluded {p : Progress} :
    run { config with excludedPrefixes := names } n p = run config n p := by
  induction n generalizing p with
  | zero => rfl
  | succ n ih =>
    unfold run
    simp only [ih]
    rfl

lemma LockSearch.run_excluded {p : Progress} :
    run { config with excludedPrefixes := names } n p = run config n p := by
  induction n generalizing p with
  | zero => rfl
  | succ n ih =>
    unfold run
    simp only [ih]

namespace Arena

/-- An analysis that neither repairs nor reorders leaves the arena with the targets it has made
known. -/
lemma arena_of_detecting {r : Analysis} (hr : config.repair = false)
    (still : config.reorderLocksets = false) (h : a.analyze oracle config = .ok r) :
    r.arena = a.ensureAllTargets oracle := by
  cases mode : config.mode with
  | group =>
    obtain ⟨_, valid, h⟩ := bind_eq_ok.mp h
    rw [mode] at h
    obtain ⟨r', hr', h⟩ := bind_eq_ok.mp h
    cases h
    obtain ⟨found, hf, hr'⟩ := bind_eq_ok.mp hr'
    cases hr'
    exact GroupSearch.arena_of_detecting hr (GroupSearch.searchGroups_eq_ok.mp hf).2
  | lockset =>
    obtain ⟨found, hf, reports⟩ := exists_found mode h
    obtain ⟨_, rfl⟩ := searchLocks_eq_ok.mp hf
    rw [reports.arena, still]
    exact LockSearch.arena_of_detecting hr

/-- An analysis does not look at exclusions, but at the calls that they leave. -/
lemma analyze_excluded :
    a.analyze oracle { config with excludedPrefixes := names } = a.analyze oracle config := by
  have groups : a.searchGroups oracle { config with excludedPrefixes := names } =
      a.searchGroups oracle config := by
    simp only [searchGroups, GroupSearch.run_excluded]
  have locks : a.searchLocks oracle { config with excludedPrefixes := names } =
      a.searchLocks oracle config := by
    simp only [searchLocks, LockSearch.run_excluded]
  simp only [analyze, analyzeGroups, analyzeLocksets, groups, locks]

/-- Once targets are known an analysis does not ask for calls. -/
lemma analyze_known (valid : a.validate = .ok ()) :
    (a.ensureAllTargets calls).analyze oracle config = a.analyze calls config := by
  have valid' : (a.ensureAllTargets calls).validate = .ok () :=
    validate_eq_ok.mpr (validate_eq_ok.mp valid).ensureAllTargets
  have known : (a.ensureAllTargets calls).ensureAllTargets oracle = a.ensureAllTargets calls :=
    targetsKnown_ensureAllTargets.ensureAllTargets
  have groups : (a.ensureAllTargets calls).searchGroups oracle config =
      a.searchGroups calls config := by
    rw [searchGroups, searchGroups, valid, valid', known]
  have locks : (a.ensureAllTargets calls).searchLocks oracle config =
      a.searchLocks calls config := by
    rw [searchLocks, searchLocks, valid, valid', known]
  simp only [analyze, analyzeGroups, analyzeLocksets, groups, locks, valid, valid']

/-- No targets are known. -/
def TargetsUnknown (a : Arena) : Prop :=
  ∀ ⦃i : SectionId⦄ ⦃s⦄, a.sections[i]? = some s → s.targets = none

/-- Where no targets are known, those that are made known are what the calls say. -/
lemma TargetsUnknown.ensureAllTargets (h : a.TargetsUnknown) : a.ensureAllTargets oracle =
    { a with sections := a.sections.map fun s =>
        { s with targets := some (.ofList (s.invokes.flatMap oracle)) } } := by
  have asked : a.sections.map (·.withTargets oracle) = a.sections.map fun s =>
      { s with targets := some (.ofList (s.invokes.flatMap oracle)) } := by
    apply List.map_congr_left
    intro s hs
    obtain ⟨i, hi⟩ := List.mem_iff_getElem?.mp hs
    rw [Section.withTargets, h hi]
  rw [Arena.ensureAllTargets, asked]

end Arena

end Detecting

/-- A built program is valid, and knows no targets. -/
lemma Model.fresh_of_build {m : Model} {p : Program} (built : m.build = .ok p) :
    p.arena.validate = .ok () ∧ p.arena.TargetsUnknown := by
  obtain ⟨wellFormed, describes⟩ := (settles_build m).of_ok built
  refine ⟨describes.validate wellFormed, fun i r hr => ?_⟩
  obtain ⟨s, _, enters⟩ := getElem?_of_forall₂ describes.sections hr
  exact enters.targets

/-- An analysis has changed a program by the targets that it has made known and by its exclusions,
and a later analysis answers as for a program that was not analyzed yet, under these exclusions. -/
structure Program.Transparent (p : Program) (first : Config) : Prop where
  /-- The analysis has an answer. -/
  answers : ∃ r, (p.analyze first).2 = .ok r
  /-- Every section knows its targets, by the calls that the exclusions leave. -/
  filled : (p.analyze first).1.arena =
    { p.arena with sections := p.arena.sections.map fun s =>
        { s with targets := some (.ofList (s.invokes.flatMap
          { p.calls with excluded := first.excludedPrefixes }.reachable)) } }
  /-- Another analysis has the report of a fresh one under the exclusions of the first, and leaves
  what that leaves. -/
  again : ∀ config, ∃ r arena,
    ((p.analyze first).1.analyze config).2 = .ok r ∧
    ((p.analyze first).1.analyze config).1.arena = arena ∧
    (p.analyze { config with excludedPrefixes := first.excludedPrefixes }).2 = .ok r ∧
    (p.analyze { config with excludedPrefixes := first.excludedPrefixes }).1.arena = arena

/-- Where an analysis of the arena goes through, the program has its answer and its arena. -/
lemma Program.analyze_of_ok {p : Program} {config : Config} {r : Analysis}
    (h : p.arena.analyze { p.calls with excluded := config.excludedPrefixes }.reachable
      config = .ok r) :
    (p.analyze config).2 = .ok (r.report, r.log) ∧ (p.analyze config).1.arena = r.arena := by
  rw [analyze, h]
  exact ⟨rfl, rfl⟩

/-- An analysis of a built program that neither repairs nor reorders is transparent but for the
targets that it makes known. -/
theorem Program.analyze_transparent {m : Model} {p : Program} {first : Config}
    (built : m.build = .ok p) (hr : first.repair = false) (still : first.reorderLocksets = false) :
    p.Transparent first := by
  obtain ⟨valid, unknown⟩ := Model.fresh_of_build built
  have goes : ∀ config, ∃ r, p.arena.analyze
      { p.calls with excluded := first.excludedPrefixes }.reachable config = .ok r := by
    intro config
    obtain ⟨r, h, _⟩ := Checked.analyze_ok Checked.Clustering.byLeader_exact valid _ config
    exact ⟨r, h⟩
  obtain ⟨r, h⟩ := goes first
  obtain ⟨answer, arena⟩ := analyze_of_ok h
  rw [Arena.arena_of_detecting hr still h] at arena
  constructor
  case answers => exact ⟨_, answer⟩
  case filled => rw [arena, unknown.ensureAllTargets]
  case again =>
    intro config
    obtain ⟨r', h'⟩ := goes config
    have later : ((p.analyze first).1.analyze config).2 = .ok (r'.report, r'.log) ∧
        ((p.analyze first).1.analyze config).1.arena = r'.arena := by
      apply analyze_of_ok
      rw [arena]
      exact (Arena.analyze_known valid).trans h'
    have fresh : (p.analyze { config with excludedPrefixes := first.excludedPrefixes }).2 =
          .ok (r'.report, r'.log) ∧
        (p.analyze { config with excludedPrefixes := first.excludedPrefixes }).1.arena = r'.arena :=
      analyze_of_ok (Arena.analyze_excluded.trans h')
    exact ⟨_, _, later.1, later.2, fresh.1, fresh.2⟩

/-- Two methods that call each other, each with a section under a lock of its own. -/
def callingEachOther : Model where
  methods := [{ name := "App.a", calls := [{ targets := ["Lib.b"] }] },
    { name := "Lib.b", calls := [{ targets := ["App.a"] }] }]
  locks := [{ name := "A", kind := .static }, { name := "B", kind := .static }]
  groups := 1
  criticalSections :=
    [{ name := "s", method := "App.a", lockset := ["A"], group := some 0 },
      { name := "t", method := "Lib.b", lockset := ["B"], group := some 0 }]

/-- Once an analysis has excluded one of the methods, a later one without exclusions reports no
deadlock between their sections. -/
theorem Program.analyze_transparent_callingEachOther :
    ∃ p, callingEachOther.build = .ok p ∧
      p.Transparent { excludedPrefixes := ["Lib."] } ∧
      (((p.analyze { excludedPrefixes := ["Lib."] }).1.analyze {}).2.map (·.1.status.label)) =
        .ok "acyclic" ∧
      (p.analyze {}).2.map (·.1.status.label) = .ok "deadlock_reported" := by
  obtain ⟨p, built, status⟩ : ∃ p, callingEachOther.build = .ok p ∧
      (((p.analyze { excludedPrefixes := ["Lib."] }).1.analyze {}).2.map (·.1.status.label)) =
        .ok "acyclic" ∧
      (p.analyze {}).2.map (·.1.status.label) = .ok "deadlock_reported" := ⟨_, rfl, rfl, rfl⟩
  exact ⟨p, built, analyze_transparent built rfl rfl, status⟩

end Interlock
