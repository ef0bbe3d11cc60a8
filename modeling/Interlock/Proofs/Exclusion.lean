import Interlock.Proofs.Program.Build
import Interlock.Proofs.GroupOrder.Content
import Interlock.Proofs.LockOrder.Verdict
import Interlock.Proofs.Transparency

/-!
# Fewer exclusions hide no deadlock

Sections that know more targets enter what they have entered, and the rest of their records is the
same (`Arena.EntersMore`). So locks or groups that are opposed stay opposed
(`EntersMore.deadlocked`). An analysis without repair reports a deadlock exactly where they are
(`Arena.analyze_reports`), and calls reach no less with fewer exclusions
(`CallGraph.reachable_mono`), so a deadlock that is reported under some exclusions is reported under
any that are among these (`Program.reports_of_subset`).
-/

namespace Interlock

open Relation (TransGen)

@[simp] lemma Status.isDeadlockReported_map {C D : Type} {f : C → D} {s : Status C} :
    (s.map f).isDeadlockReported = s.isDeadlockReported := by
  cases s <;> rfl

/-- With more calls a section enters more, unless its targets are known already. -/
lemma Section.enters_withTargets {oracle calls : Oracle} {outer inner : Section}
    (more : ∀ site, oracle site ⊆ calls site)
    (enters : (outer.withTargets oracle).enters (inner.withTargets oracle) = true) :
    (outer.withTargets calls).enters (inner.withTargets calls) = true := by
  obtain ⟨targets, hi⟩ := inner.exists_withTargets oracle
  obtain ⟨targets', hi'⟩ := inner.exists_withTargets calls
  rw [hi] at enters
  rw [hi']
  unfold withTargets Section.enters at enters ⊢
  cases known : outer.targets with
  | some targets =>
    simp only [known] at enters ⊢
    exact enters
  | none =>
    simp only [known, SortedSet.contains_eq_true, SortedSet.mem_ofList,
      List.mem_flatMap] at enters ⊢
    obtain ⟨site, hs, called⟩ := enters
    exact ⟨site, hs, more site called⟩

namespace Arena

variable {a b : Arena} {oracle calls : Oracle} {config : Config} {loops : Bool} {t u : SectionId}
  {x y : LockNum} {g h : GroupId}

/-- The sections of the second arena are those of the first, with targets by which they may enter
more. -/
structure EntersMore (a b : Arena) : Prop where
  locks : b.locks = a.locks
  sections : ∀ t : SectionId, ∃ targets, b.sections[t]? = (a.sections[t]?).map fun s =>
    { s with targets }
  entered : ∀ t u, a.mayEnter t u = true → b.mayEnter t u = true

namespace EntersMore

lemma held (m : a.EntersMore b) : b.held t = a.held t := by
  obtain ⟨targets, hb⟩ := m.sections t
  rw [Arena.held, hb, m.locks, Arena.held]
  cases a.sections[t]? with
  | none => rfl
  | some s => rfl

lemma mem_groupedSections (m : a.EntersMore b) : t ∈ b.groupedSections ↔ t ∈ a.groupedSections := by
  obtain ⟨targets, hb⟩ := m.sections t
  simp only [Arena.mem_groupedSections, hb, Option.map_eq_some_iff]
  constructor
  · rintro ⟨_, ⟨s, hs, rfl⟩, grouped⟩
    exact ⟨s, hs, grouped⟩
  · rintro ⟨s, hs, grouped⟩
    exact ⟨_, ⟨s, hs, rfl⟩, grouped⟩

lemma lockedIn (m : a.EntersMore b) (locked : a.LockedIn t g) : b.LockedIn t g := by
  obtain ⟨targets, hb⟩ := m.sections t
  obtain ⟨s, hs, locked, hg⟩ := locked
  exact ⟨_, hb.trans (congrArg (Option.map _) hs), locked, hg⟩

lemma orders (m : a.EntersMore b) (orders : a.Orders t x y) : b.Orders t x y := by
  obtain ⟨ht, hx, u, hu, enters, hy⟩ := orders
  refine ⟨m.mem_groupedSections.mpr ht, ?_, u, m.mem_groupedSections.mpr hu,
    m.entered t u enters, ?_⟩
  · rw [m.held]
    exact hx
  · rw [m.held]
    exact hy

lemma opposed (m : a.EntersMore b) (opposed : a.Opposed) : b.Opposed := by
  obtain ⟨x, y, s, t, hne, hxy, hyx, apart⟩ := opposed
  refine ⟨x, y, s, t, hne, m.orders hxy, m.orders hyx, fun excludes => apart ?_⟩
  obtain ⟨n, static, hs, ht⟩ := excludes_iff.mp excludes
  rw [m.held] at hs ht
  exact excludes_iff.mpr ⟨n, static, hs, ht⟩

lemma precedes (m : a.EntersMore b) (precedes : a.Precedes g h) : b.Precedes g h := by
  obtain ⟨hne, s, t, hs, ht, enters⟩ := precedes
  exact ⟨hne, s, t, m.lockedIn hs, m.lockedIn ht, m.entered s t enters⟩

lemma groupsOpposed (m : a.EntersMore b) (opposed : a.GroupsOpposed loops) :
    b.GroupsOpposed loops := by
  rcases opposed with ⟨g, cycle⟩ | ⟨asked, g, s, t, s', t', hne, ⟨hs, ht, enters⟩,
    hs', ht', enters'⟩
  · exact .inl ⟨g, cycle.lift id fun _ _ => m.precedes⟩
  · exact .inr ⟨asked, g, s, t, s', t', hne, ⟨m.lockedIn hs, m.lockedIn ht, m.entered s t enters⟩,
      m.lockedIn hs', m.lockedIn ht', m.entered s' t' enters'⟩

end EntersMore

/-- With more calls sections enter more, where their targets are not known yet. -/
lemma entersMore_ensureAllTargets (more : ∀ site, oracle site ⊆ calls site) :
    (a.ensureAllTargets oracle).EntersMore (a.ensureAllTargets calls) := by
  refine ⟨rfl, fun t => ?_, fun t u enters => ?_⟩
  · rw [sections_ensureAllTargets, sections_ensureAllTargets]
    cases a.sections[t]? with
    | none => exact ⟨none, rfl⟩
    | some s =>
      obtain ⟨targets, ht⟩ := s.exists_withTargets oracle
      obtain ⟨targets', ht'⟩ := s.exists_withTargets calls
      refine ⟨targets', ?_⟩
      rw [Option.map_some, Option.map_some, ht, ht']
      rfl
  · rw [mayEnter, sections_ensureAllTargets, sections_ensureAllTargets] at enters ⊢
    cases ht : a.sections[t]? with
    | none =>
      rw [ht] at enters
      cases enters
    | some outer =>
      cases hu : a.sections[u]? with
      | none =>
        rw [ht, hu] at enters
        cases enters
      | some inner =>
        rw [ht, hu] at enters
        exact Section.enters_withTargets more enters

/-- Locks or groups are opposed, whichever an analysis looks for. -/
def Deadlocked (a : Arena) (config : Config) : Prop :=
  match config.mode with
  | .group => a.GroupsOpposed config.allowSelfEdges
  | .lockset => a.Opposed

lemma EntersMore.deadlocked (m : a.EntersMore b) (dead : a.Deadlocked config) :
    b.Deadlocked config := by
  unfold Deadlocked at dead ⊢
  cases mode : config.mode with
  | group =>
    rw [mode] at dead
    exact m.groupsOpposed dead
  | lockset =>
    rw [mode] at dead
    exact m.opposed dead

/-- An analysis of groups reports how its search has ended. -/
lemma status_of_groups {s : GroupSearch} {r : Analysis} (mode : config.mode = .group)
    (hs : a.searchGroups oracle config = .ok s) (h : a.analyze oracle config = .ok r) :
    r.report.status = s.status.map s.arena.nameGroupConflict := by
  obtain ⟨valid, _⟩ := GroupSearch.searchGroups_eq_ok.mp hs
  simp only [analyze, mode, analyzeGroups, valid, hs, bind, Except.bind, pure, Except.pure] at h
  cases h
  rfl

/-- An analysis without repair reports a deadlock exactly where locks or groups are opposed. -/
lemma analyze_reports (oracle : Oracle) (config : Config) (valid : a.validate = .ok ())
    (numbered : a.Numbered) (hr : config.repair = false) (hm : 1 ≤ config.maxIterations) :
    ∃ r, a.analyze oracle config = .ok r ∧
      (r.report.status.isDeadlockReported = true ↔
        (a.ensureAllTargets oracle).Deadlocked config) := by
  have valid' : (a.ensureAllTargets oracle).Valid := (validate_eq_ok.mp valid).ensureAllTargets
  unfold Deadlocked
  cases mode : config.mode with
  | group =>
    obtain ⟨s, hs, reported⟩ := GroupSearch.exists_reported oracle valid hr hm
    obtain ⟨r, answer, _⟩ := analyze_of_groups mode hs
    refine ⟨r, answer, ?_⟩
    rw [status_of_groups mode hs answer, Status.isDeadlockReported_map,
      reported.reported valid' numbered.ensureAllTargets, Config.effectiveAllowSelfEdges, hr]
    simp
  | lockset =>
    obtain ⟨n, hn⟩ := Nat.exists_eq_add_of_le' hm
    have hs : a.searchLocks oracle config = .ok _ := searchLocks_eq_ok.mpr ⟨valid, rfl⟩
    obtain ⟨r, answer, reports⟩ := analyze_of_found mode hs
    refine ⟨r, answer, ?_⟩
    rw [reports.status, Status.isDeadlockReported_map, hn, LockSearch.run_reported hr]

end Arena

/-- An analysis of the program under the configuration reports a deadlock. -/
def Program.Reports (p : Program) (config : Config) : Prop :=
  ∃ r, (p.analyze config).2 = .ok r ∧ r.1.status.isDeadlockReported = true

/-- Without repair a built program is reported, under some exclusions, exactly where its locks or
its groups are opposed by the calls that these leave. -/
lemma Program.reports_iff {m : Model} {p : Program} {config : Config} (built : m.build = .ok p)
    (hr : config.repair = false) (hm : 1 ≤ config.maxIterations) (names : List String) :
    p.Reports { config with excludedPrefixes := names } ↔
      (p.arena.ensureAllTargets { p.calls with excluded := names }.reachable).Deadlocked
        config := by
  obtain ⟨r, answer, verdict⟩ := Arena.analyze_reports { p.calls with excluded := names }.reachable
    { config with excludedPrefixes := names } (Model.fresh_of_build built).1
      (Model.numbered_of_build built) hr hm
  have report : (p.analyze { config with excludedPrefixes := names }).2 = .ok (r.report, r.log) :=
    (analyze_of_ok answer).1
  refine Iff.trans ?_ verdict
  rw [Reports, report]
  constructor
  · rintro ⟨_, same, reported⟩
    cases same
    exact reported
  · exact fun reported => ⟨_, rfl, reported⟩

/-- A valid configuration allows for a pass. -/
lemma Config.one_le_of_validate {config : Config} (valid : config.validate = .ok ()) :
    1 ≤ config.maxIterations := by
  unfold validate at valid
  split at valid
  · cases valid
  · rename_i range
    exact Nat.one_le_iff_ne_zero.mpr fun zero => range (.inl zero)

/-- What is reported under some exclusions is reported under any that are among them. -/
theorem Program.reports_of_subset {m : Model} {p : Program} {config : Config}
    {fewer more : List String} (built : m.build = .ok p) (hr : config.repair = false)
    (valid : ({ config with excludedPrefixes := more } : Config).validate = .ok ())
    (sub : fewer ⊆ more) (reported : p.Reports { config with excludedPrefixes := more }) :
    p.Reports { config with excludedPrefixes := fewer } := by
  have passes := Config.one_le_of_validate valid
  rw [reports_iff built hr passes] at reported ⊢
  have reached : ∀ site, { p.calls with excluded := more }.reachable site ⊆
      { p.calls with excluded := fewer }.reachable site :=
    fun _ => CallGraph.reachable_mono (Model.closed_of_build built) sub
  exact (Arena.entersMore_ensureAllTargets reached).deadlocked reported

/-- Two sections that call each other are reported while other names are excluded, so they are
reported without exclusions too. -/
theorem Program.reports_of_subset_callingEachOther :
    ∃ p, callingEachOther.build = .ok p ∧ p.Reports { excludedPrefixes := ["Main."] } ∧
    p.Reports {} := by
  obtain ⟨p, built, reported⟩ : ∃ p, callingEachOther.build = .ok p ∧
      p.Reports { excludedPrefixes := ["Main."] } := ⟨_, rfl, _, rfl, rfl⟩
  refine ⟨p, built, reported, ?_⟩
  exact @reports_of_subset _ p {} [] ["Main."] built rfl rfl (List.nil_subset _) reported

end Interlock
