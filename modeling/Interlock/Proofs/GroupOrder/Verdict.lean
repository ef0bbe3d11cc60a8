import Interlock.Proofs.GroupOrder.Precedence

/-!
# The verdict of a search between groups

Without repair a search reports a deadlock exactly where groups are opposed (`Arena.GroupsOpposed`):
some group precedes itself by way of others or, where pairs inside a group count, some group has two
pairs of sections of which the first may enter the second. A pass without a conflict leaves no
opposed groups (`not_opposed_of_pass`), and a pass that meets a conflict has found some
(`Met.opposed`).

The relation between groups is a matter of the sections' records, not of their order
(`Arena.GroupsOpposed.of_places`), so neither is the verdict.
-/

namespace Interlock

open Relation (TransGen ReflTransGen)

namespace Arena

/-- Two different pairs of locked sections of one group enter each other, the first of a pair the
second. -/
def EntersTwice (a : Arena) : Prop :=
  ∃ g s t s' t', (s, t) ≠ (s', t') ∧ (a.LockedIn s g ∧ a.LockedIn t g ∧ a.mayEnter s t = true) ∧
    (a.LockedIn s' g ∧ a.LockedIn t' g ∧ a.mayEnter s' t' = true)

/-- Some group precedes itself by way of others, or has two pairs inside it where these count. -/
def GroupsOpposed (a : Arena) (loops : Bool) : Prop :=
  (∃ g, TransGen a.Precedes g g) ∨ (loops = true ∧ a.EntersTwice)

end Arena

/-- A conflict that a search without repair reports, with the arcs that show it. -/
structure GroupSearch.Witnessed (s : GroupSearch) (loops : Bool) (c : GroupConflict) : Prop where
  outer : s.arena.LockedIn c.outer c.outerGroup
  inner : s.arena.LockedIn c.inner c.innerGroup
  entered : s.arena.mayEnter c.outer c.inner = true
  /-- The order has the arc that was refused. -/
  forward : (c.outerGroup, c.innerGroup) ∈ s.order.arcs
  /-- A path of at least one arc leads back. -/
  back : s.order.Path c.innerGroup c.outerGroup
  /-- The arcs are those of sections that enter others. -/
  arcs : ∀ {g h}, (g, h) ∈ s.order.arcs → (g ≠ h ∨ loops = true) ∧
    ∃ t u, s.arena.LockedIn t g ∧ s.arena.LockedIn u h ∧ s.arena.mayEnter t u = true
  /-- A conflict inside a group shows another pair inside it, which has made the arc before. -/
  again : c.outerGroup = c.innerGroup → ∃ t u, (t, u) ≠ (c.outer, c.inner) ∧
    s.arena.LockedIn t c.outerGroup ∧ s.arena.LockedIn u c.outerGroup ∧ s.arena.mayEnter t u = true

/-- What a search between groups without repair finds out about an arena. -/
structure GroupSearch.Decides (a : Arena) (oracle : Oracle) (config : Config) (s : GroupSearch) :
    Prop where
  arena : s.arena = a.ensureAllTargets oracle
  reported : s.status.isDeadlockReported = true ↔ s.arena.GroupsOpposed config.allowSelfEdges
  otherwise : s.status.isDeadlockReported = false → s.status = .acyclic
  witnessed : ∀ c, s.status = .deadlockReported c → s.Witnessed config.allowSelfEdges c
  /-- The verdict does not depend on the order of the sections. -/
  rearranged : ∀ (b : Arena) (s' : GroupSearch), a.sections.Perm b.sections → b.Numbered →
    b.searchGroups oracle config = .ok s' →
      s'.status.isDeadlockReported = s.status.isDeadlockReported

namespace GroupSearch

variable {a : Arena} {config : Config} {o : Digraph GroupId} {c : GroupConflict} {g : GroupId}

/-- A pass without a conflict leaves no opposed groups. -/
lemma not_opposed_of_pass (valid : a.Valid) (numbered : a.Numbered) (h : pass a config = .ok o) :
    ¬ a.GroupsOpposed config.effectiveAllowSelfEdges := by
  obtain ⟨ordered, once⟩ := pass_ok h
  rintro (⟨g, cycle⟩ | ⟨loops, g, s, t, s', t', hne, ⟨hs, ht, enters⟩, hs', ht', enters'⟩)
  · exact ordered.acyclic valid numbered cycle
  · obtain ⟨p, hp, ⟨hp1, hp2⟩, inside⟩ :=
      (Arena.exists_orderingPair valid numbered).mpr ⟨.inr loops, hs, ht, enters⟩
    obtain ⟨q, hq, ⟨hq1, hq2⟩, inside'⟩ :=
      (Arena.exists_orderingPair valid numbered).mpr ⟨.inr loops, hs', ht', enters'⟩
    have same : p = q := once hp hq inside inside'
    rw [← hp1, ← hp2, ← hq1, ← hq2, same] at hne
    exact hne rfl

namespace Met

variable {loops : Bool}

/-- A conflict is one of opposed groups. -/
lemma opposed (met : Met a loops o c) : a.GroupsOpposed loops := by
  by_cases same : c.outerGroup = c.innerGroup
  · obtain ⟨s, t, hne, hs, ht, enters⟩ := met.again same
    have inner := met.inner
    rw [← same] at inner
    exact .inr ⟨met.asked.resolve_left fun hne =>
      hne same, c.outerGroup, s, t, c.outer, c.inner, hne,
      ⟨hs, ht, enters⟩, met.outer, inner, met.entered⟩
  · obtain ⟨first, rest⟩ := met.eachOther same
    exact .inl ⟨_, TransGen.head'_iff.mpr ⟨_, first, rest⟩⟩

end Met

end GroupSearch

namespace Arena

variable {a b : Arena} {oracle : Oracle} {loops : Bool}

/-- Where the sections of one arena are in places of their own in another, opposed groups stay
opposed. -/
lemma GroupsOpposed.of_places {f : SectionId → SectionId} (inj : f.Injective)
    (places : ∀ i, b.sections[f i]? = a.sections[i]?) (h : a.GroupsOpposed loops) :
    b.GroupsOpposed loops := by
  have locked : ∀ {t g}, a.LockedIn t g → b.LockedIn (f t) g := by
    rintro t g ⟨s, hs, locked, hg⟩
    exact ⟨s, (places t).trans hs, locked, hg⟩
  have enters : ∀ s t, b.mayEnter (f s) (f t) = a.mayEnter s t := by
    intro s t
    rw [mayEnter, places, places, mayEnter]
  rcases h with ⟨g, cycle⟩ | ⟨asked, g, s, t, s', t', hne, ⟨hs, ht, he⟩, hs', ht', he'⟩
  · refine .inl ⟨g, cycle.lift id ?_⟩
    rintro x y ⟨hne, s, t, hs, ht, he⟩
    exact ⟨hne, f s, f t, locked hs, locked ht, (enters s t).trans he⟩
  · refine .inr ⟨asked, g, f s, f t, f s', f t', ?_, ⟨locked hs, locked ht, (enters s t).trans he⟩,
      locked hs', locked ht', (enters s' t').trans he'⟩
    intro e
    obtain ⟨e1, e2⟩ := Prod.mk.inj e
    exact hne (by rw [inj e1, inj e2])

/-- The members of a list are in places of their own in a permutation of it. -/
lemma exists_places {α : Type} {l k : List α} (h : l.Perm k) :
    ∃ f : Nat → Nat, f.Injective ∧ ∀ i, k[f i]? = l[i]? := by
  induction h with
  | nil => exact ⟨id, Function.injective_id, fun _ => rfl⟩
  | cons x _ ih =>
    obtain ⟨f, inj, places⟩ := ih
    refine ⟨fun i => i.casesOn 0 fun i => f i + 1, ?_, ?_⟩
    · rintro (_ | i) (_ | j) e
      · rfl
      · cases e
      · cases e
      · exact congrArg (· + 1) (inj (Nat.succ.inj e))
    · rintro (_ | i)
      · rfl
      · exact places i
  | swap x y l =>
    refine ⟨fun i => if i = 0 then 1 else if i = 1 then 0 else i, ?_, ?_⟩
    · intro i j e
      dsimp only at e
      split_ifs at e <;> omega
    · rintro (_ | _ | i)
      · rfl
      · rfl
      · rfl
  | trans _ _ ih ih' =>
    obtain ⟨f, inj, places⟩ := ih
    obtain ⟨f', inj', places'⟩ := ih'
    exact ⟨f' ∘ f, inj'.comp inj, fun i => (places' (f i)).trans (places i)⟩

/-- Opposed groups do not depend on the order of the sections. -/
lemma GroupsOpposed.of_perm (perm : a.sections.Perm b.sections)
    (h : (a.ensureAllTargets oracle).GroupsOpposed loops) :
    (b.ensureAllTargets oracle).GroupsOpposed loops := by
  obtain ⟨f, inj, places⟩ := exists_places (perm.map (·.withTargets oracle))
  exact GroupsOpposed.of_places (a := a.ensureAllTargets oracle)
    (b := b.ensureAllTargets oracle) inj
    places h

end Arena

namespace GroupSearch

variable {a b : Arena} {oracle : Oracle} {config : Config} {s : GroupSearch} {o : Digraph GroupId}
  {c : GroupConflict} {n : Nat}

/-- The state in which a search begins. -/
def start (a : Arena) (oracle : Oracle) : Progress := { arena := a.ensureAllTargets oracle }

/-- A search of a valid arena is a run, and a search of another one fails. -/
theorem searchGroups_eq_ok :
    a.searchGroups oracle config = .ok s ↔
      a.validate = .ok () ∧ run config config.maxIterations (start a oracle) = .ok s := by
  rw [Arena.searchGroups, bind_eq_ok]
  constructor
  · rintro ⟨_, valid, h⟩
    exact ⟨valid, h⟩
  · rintro ⟨valid, h⟩
    exact ⟨(), valid, h⟩

/-- What a search without repair leaves after its one pass. -/
structure Reported (a : Arena) (config : Config) (s : GroupSearch) : Prop where
  arena : s.arena = a
  pass : (∃ o, pass a config = .ok o ∧ s.status = .acyclic) ∨
    ∃ o c, pass a config = .error (o, c) ∧ s.status = .deadlockReported c ∧
      s.order = o.addArc c.outerGroup c.innerGroup

/-- A run without repair is over after one pass. -/
lemma run_reporting (hr : config.repair = false) :
    ∃ s, run config (n + 1) (start a oracle) = .ok s ∧
    Reported (a.ensureAllTargets oracle) config s := by
  unfold run
  have same : (start a oracle).arena = a.ensureAllTargets oracle := rfl
  rw [same]
  cases hp : pass (a.ensureAllTargets oracle) config with
  | ok o => exact ⟨_, rfl, rfl, .inl ⟨o, hp, rfl⟩⟩
  | error e =>
    obtain ⟨o, c⟩ := e
    rw [hr]
    exact ⟨_, rfl, rfl, .inr ⟨o, c, hp, rfl, rfl⟩⟩

/-- A search of a valid arena without repair is one pass. -/
lemma exists_reported (oracle : Oracle) (valid : a.validate = .ok ())
    (hr : config.repair = false) (hm : 1 ≤ config.maxIterations) :
    ∃ s, a.searchGroups oracle config = .ok s ∧
      Reported (a.ensureAllTargets oracle) config s := by
  obtain ⟨n, hn⟩ := Nat.exists_eq_add_of_le' hm
  obtain ⟨s, hs, reported⟩ := run_reporting hr
  exact ⟨s, searchGroups_eq_ok.mpr ⟨valid, hn ▸ hs⟩, reported⟩

/-- A search without repair reports a deadlock exactly where groups are opposed. -/
lemma Reported.reported (h : Reported a config s) (valid : a.Valid) (numbered : a.Numbered) :
    s.status.isDeadlockReported = true ↔ a.GroupsOpposed config.effectiveAllowSelfEdges := by
  rcases h.pass with ⟨o, hp, status⟩ | ⟨o, c, hp, status, _⟩
  · rw [status]
    exact ⟨nofun, fun opposed => absurd opposed (not_opposed_of_pass valid numbered hp)⟩
  · rw [status]
    exact ⟨fun _ => (met_of_pass valid numbered hp).opposed, fun _ => rfl⟩

/-- The reported order shows the conflict. -/
lemma Reported.witnessed (h : Reported a config s) (valid : a.Valid) (numbered : a.Numbered)
    (hc : s.status = .deadlockReported c) : s.Witnessed config.effectiveAllowSelfEdges c := by
  rcases h.pass with ⟨o, _, status⟩ | ⟨o, d, hp, status, order⟩
  · rw [status] at hc
    cases hc
  · rw [status] at hc
    cases hc
    have met := met_of_pass valid numbered hp
    have more : ∀ {x y}, (x, y) ∈ o.arcs → (x, y) ∈ s.order.arcs := by
      intro x y arc
      rw [order]
      exact Digraph.mem_arcs_addArc.mpr (.inr arc)
    constructor
    · exact h.arena ▸ met.outer
    · exact h.arena ▸ met.inner
    · exact h.arena ▸ met.entered
    · rw [order]
      exact Digraph.mem_arcs_addArc.mpr (.inl ⟨rfl, rfl⟩)
    · exact Digraph.path_iff_transGen.mpr (met.back.lift id fun _ _ => more)
    · intro x y arc
      rw [order, Digraph.mem_arcs_addArc] at arc
      rw [h.arena]
      rcases arc with ⟨rfl, rfl⟩ | arc
      · exact ⟨met.asked, _, _, met.outer, met.inner, met.entered⟩
      · obtain ⟨asked, t, u, _, hold⟩ := met.arcs arc
        exact ⟨asked, t, u, hold⟩
    · rw [h.arena]
      exact met.again

end GroupSearch

/-- A search between groups without repair reports a deadlock exactly where groups are opposed, and
shows it by its conflict and its order. Every arena that the operations build is numbered
(`Arena.Built.numbered`). -/
theorem searchGroups_decides {a : Arena} {oracle : Oracle} {config : Config}
    (valid : a.validate = .ok ()) (numbered : a.Numbered) (hr : config.repair = false)
    (hm : 1 ≤ config.maxIterations) :
    ∃ s, a.searchGroups oracle config = .ok s ∧ GroupSearch.Decides a oracle config s := by
  have effective : config.effectiveAllowSelfEdges = config.allowSelfEdges := by
    rw [Config.effectiveAllowSelfEdges, hr]
    exact Bool.and_true _
  have verdict : ∀ {b : Arena} {s}, b.validate = .ok () → b.Numbered →
      GroupSearch.Reported (b.ensureAllTargets oracle) config s →
        (s.status.isDeadlockReported = true ↔
          (b.ensureAllTargets oracle).GroupsOpposed config.allowSelfEdges) := by
    intro b s hb numbered reported
    rw [← effective]
    exact reported.reported (Arena.validate_eq_ok.mp hb).ensureAllTargets numbered.ensureAllTargets
  obtain ⟨s, hs, reported⟩ := GroupSearch.exists_reported oracle valid hr hm
  have known : (a.ensureAllTargets oracle).Valid := (Arena.validate_eq_ok.mp valid).ensureAllTargets
  refine ⟨s, hs, reported.arena, ?_, ?_, ?_, ?_⟩
  · rw [reported.arena]
    exact verdict valid numbered reported
  · intro unreported
    rcases reported.pass with ⟨_, _, status⟩ | ⟨_, _, _, status, _⟩
    · exact status
    · rw [status] at unreported
      cases unreported
  · intro c hc
    rw [← effective]
    exact reported.witnessed known numbered.ensureAllTargets hc
  · intro b s' perm numbered' hs'
    have valid' := (GroupSearch.searchGroups_eq_ok.mp hs').1
    obtain ⟨s'', hs'', reported'⟩ := GroupSearch.exists_reported oracle valid' hr hm
    rw [hs'] at hs''
    cases hs''
    rw [Bool.eq_iff_iff, verdict valid' numbered' reported', verdict valid numbered reported]
    exact ⟨Arena.GroupsOpposed.of_perm perm.symm, Arena.GroupsOpposed.of_perm perm⟩

/-- A section of a group for closed arenas: entered by the method with its own number, and with call
sites that are numbered like the methods they call. -/
def Section.member (method : MethodId) (calls : List SiteId) (group : GroupId) : Section where
  name := ""
  method := method
  owner := "App"
  invokes := calls
  group := some group
  setNumber := group + 1

/-- Two sections of two groups that enter each other, and a third that enters one of them. -/
def crossingGroups : Arena where
  sections := [.member 0 [1] 0, .member 1 [0] 1, .member 2 [0] 2]
  groups :=
    [{ number := 1, members := .ofList [0] }, { number := 2, members := .ofList [1] },
      { number := 3, members := .ofList [2] }]

lemma numbered_crossingGroups : crossingGroups.Numbered := by
  rintro (_ | _ | _ | g) r hr
  · cases hr
    rfl
  · cases hr
    rfl
  · cases hr
    rfl
  · cases hr

/-- The crossing groups are reported. -/
theorem searchGroups_decides_crossing :
    ∃ s, crossingGroups.searchGroups (fun site => [site]) {} = .ok s ∧
      s.status.isDeadlockReported = true ∧
      GroupSearch.Decides crossingGroups (fun site => [site]) {} s := by
  obtain ⟨s, hs, decides⟩ : ∃ s, crossingGroups.searchGroups (fun site => [site]) {} = .ok s ∧
      GroupSearch.Decides crossingGroups (fun site => [site]) {} s :=
    searchGroups_decides rfl numbered_crossingGroups rfl (by decide)
  have reported : ∃ s, crossingGroups.searchGroups (fun site => [site]) {} = .ok s ∧
      s.status.isDeadlockReported = true := ⟨_, rfl, rfl⟩
  obtain ⟨s', hs', status⟩ := reported
  rw [hs] at hs'
  cases hs'
  exact ⟨s, hs, status, decides⟩

end Interlock
