import Interlock.Proofs.GroupOrder.Merge
import Interlock.Proofs.GroupOrder.Verdict

/-!
# Repairs condense the groups

A search with repair merges the two groups of every conflict. Since pairs inside a group do not
count then, these are two groups that precede each other, so a merge keeps the number of strongly
connected components (`Merged.card_components`) and takes one group away: the surplus of groups over
components goes down by one (`repair_repaired`). A pass that meets no conflict shows that there is
none left (`surplus_of_pass`). So a run makes as many merges as the arena has surplus groups, and is
over after one more pass (`run_settled`, `run_diverged`). What is left of every component is one
group (`searchGroups_condenses`).
-/

namespace Interlock

open Relation (TransGen ReflTransGen)

/-- Functions that tell the same members of a set apart have as many values on it. -/
lemma card_image_of_kernel {α β γ : Type} [DecidableEq α] [DecidableEq β] [DecidableEq γ]
    {s : Finset α} {f : α → β} {k : α → γ} (same : ∀ x ∈ s, ∀ y ∈ s, f x = f y ↔ k x = k y) :
    (s.image f).card = (s.image k).card := by
  induction s using Finset.induction_on with
  | empty => rfl
  | insert x s _ ih =>
    have old : f x ∈ s.image f ↔ k x ∈ s.image k := by
      simp only [Finset.mem_image]
      refine exists_congr fun y => and_congr_right fun hy => ?_
      exact same y (Finset.mem_insert_of_mem hy) x (Finset.mem_insert_self x s)
    have rest : (s.image f).card = (s.image k).card :=
      ih fun y hy z hz => same y (Finset.mem_insert_of_mem hy) z (Finset.mem_insert_of_mem hz)
    rw [Finset.image_insert, Finset.image_insert, Finset.card_insert_eq_ite,
      Finset.card_insert_eq_ite, rest]
    exact if_congr old rfl rfl

namespace Arena

variable {a b : Arena} {g h into source : GroupId}

open Classical in
/-- The groups with a member that are entangled with a group. -/
noncomputable def component (a : Arena) (g : GroupId) : Finset GroupId :=
  a.liveGroups.filter fun h => a.Entangled g h

/-- The strongly connected components of the groups that have a member. -/
noncomputable def components (a : Arena) : Finset (Finset GroupId) := a.liveGroups.image a.component

/-- How many more groups with a member there are than components. -/
noncomputable def surplus (a : Arena) : Nat := a.liveGroupCount - a.components.card

lemma card_components_le : a.components.card ≤ a.liveGroupCount := by
  rw [← card_liveGroups]
  exact Finset.card_image_le

open Classical in
lemma mem_component : h ∈ a.component g ↔ h ∈ a.liveGroups ∧ a.Entangled g h := by
  rw [component, Finset.mem_filter]

/-- Groups with a member are of one component exactly if they are entangled. -/
lemma component_eq_iff (hh : h ∈ a.liveGroups) :
    a.component g = a.component h ↔ a.Entangled g h := by
  constructor
  · intro e
    have mem : h ∈ a.component h := mem_component.mpr ⟨hh, .refl, .refl⟩
    rw [← e] at mem
    exact (mem_component.mp mem).2
  · intro both
    ext k
    rw [mem_component, mem_component]
    exact and_congr_right fun _ => ⟨both.symm.trans, both.trans⟩

namespace Merged

/-- A merge of entangled groups takes away a group with a member, and no component. -/
lemma card_components (m : a.Merged b into source) (valid : a.Valid) (valid' : b.Valid)
    (both : a.Entangled into source) (hne : into ≠ source) (live : into ∈ a.liveGroups) :
    b.components.card = a.components.card := by
  have left : b.liveGroups = a.liveGroups.erase source := m.liveGroups valid hne live
  -- the emptied group is of the component of the other, which stays
  have without : a.components = b.liveGroups.image a.component := by
    rw [left]
    refine Finset.Subset.antisymm ?_ (Finset.image_subset_image (Finset.erase_subset _ _))
    intro c hc
    obtain ⟨g, hg, rfl⟩ := Finset.mem_image.mp hc
    by_cases emptied : g = source
    · subst emptied
      rw [← (component_eq_iff hg).mpr both]
      exact Finset.mem_image_of_mem _ (Finset.mem_erase.mpr ⟨hne, live⟩)
    · exact Finset.mem_image_of_mem _ (Finset.mem_erase.mpr ⟨emptied, hg⟩)
  rw [without]
  refine card_image_of_kernel fun x hx y hy => ?_
  have same : ∀ {z}, z ∈ b.liveGroups → z ∈ a.liveGroups ∧ renamed into source z = z := by
    intro z hz
    rw [left, Finset.mem_erase] at hz
    exact ⟨hz.2, if_neg hz.1⟩
  have tangled := m.entangled_iff valid valid' both (g := x) (h := y)
  rw [(same hx).2, (same hy).2] at tangled
  rw [component_eq_iff hy, component_eq_iff (same hy).1, tangled]

/-- A merge of entangled groups takes away one surplus group. -/
lemma surplus (m : a.Merged b into source) (valid : a.Valid) (valid' : b.Valid)
    (both : a.Entangled into source) (hne : into ≠ source) (live : into ∈ a.liveGroups)
    (live' : source ∈ a.liveGroups) : b.surplus + 1 = a.surplus := by
  have components := m.card_components valid valid' both hne live
  have groups : b.liveGroupCount + 1 = a.liveGroupCount := by
    rw [← card_liveGroups, ← card_liveGroups, m.liveGroups valid hne live]
    exact Finset.card_erase_add_one live'
  have enough : b.components.card ≤ b.liveGroupCount := card_components_le
  unfold Arena.surplus
  omega

end Merged

end Arena

namespace GroupSearch

variable {a : Arena} {oracle : Oracle} {config : Config} {p q : Progress} {s : GroupSearch}
  {o : Digraph GroupId} {c : GroupConflict} {g h : GroupId} {n : Nat}

/-- What a search needs of the arena that it works on. -/
structure Ready (a : Arena) : Prop where
  valid : a.Valid
  numbered : a.Numbered
  known : a.TargetsKnown

lemma ready_start (valid : a.Valid) (numbered : a.Numbered) : Ready (start a oracle).arena :=
  ⟨valid.ensureAllTargets, numbered.ensureAllTargets, Arena.targetsKnown_ensureAllTargets⟩

/-- A pass without a conflict leaves no entangled groups but the same. -/
lemma eq_of_entangled (ready : Ready a) (hp : pass a config = .ok o) (both : a.Entangled g h) :
    g = h := by
  rcases Arena.entangled_iff.mp both with same | ⟨there, back⟩
  · exact same
  · exact absurd (there.trans back) ((pass_ok hp).1.acyclic ready.valid ready.numbered)

/-- Where a pass meets no conflict every group is a component. -/
lemma surplus_of_pass (ready : Ready a) (hp : pass a config = .ok o) : a.surplus = 0 := by
  have all : a.components.card = a.liveGroups.card := by
    refine Finset.card_image_of_injOn fun g _ h hh e => ?_
    exact eq_of_entangled ready hp ((Arena.component_eq_iff hh).mp e)
  rw [Arena.surplus, all, Arena.card_liveGroups, Nat.sub_self]

/-- What a repair does: it makes one merge, which takes away one surplus group and keeps which
sections are linked. -/
structure Repaired (p q : Progress) : Prop where
  merges : q.merges.length = p.merges.length + 1
  ready : Ready q.arena
  coarsens : p.arena.Coarsens q.arena
  surplus : q.arena.surplus + 1 = p.arena.surplus

/-- The conflict of a pass of a search with repair is one of two entangled groups. -/
lemma conflict_entangled (hr : config.repair = true) (ready : Ready a)
    (hp : pass a config = .error (o, c)) :
    c.outerGroup ≠ c.innerGroup ∧ a.Entangled c.outerGroup c.innerGroup := by
  have met := met_of_pass ready.valid ready.numbered hp
  have loops : config.effectiveAllowSelfEdges = false := by
    rw [Config.effectiveAllowSelfEdges, hr]
    exact Bool.and_false _
  have hne : c.outerGroup ≠ c.innerGroup := by
    rcases met.asked with hne | asked
    · exact hne
    · rw [loops] at asked
      cases asked
  obtain ⟨there, back⟩ := met.eachOther hne
  exact ⟨hne, .single there, back⟩

/-- The repair of a conflict goes through, and is one. -/
lemma repair_repaired (hr : config.repair = true) (ready : Ready p.arena)
    (hp : pass p.arena config = .error (o, c)) (log : List Event) :
    ∃ q, repair { p with log } o c = .ok q ∧ Repaired p q := by
  have valid := ready.valid
  have met := met_of_pass valid ready.numbered hp
  obtain ⟨hne, both⟩ := conflict_entangled hr ready hp
  have live : ∀ {t k}, p.arena.LockedIn t k →
      k ∈ p.arena.liveGroups ∧ ∃ r, p.arena.groups[k]? = some r := by
    intro t k locked
    refine ⟨valid.mem_liveGroups.mpr ⟨t, valid.lockedIn_iff.mp locked⟩, ?_⟩
    obtain ⟨r, hr, _, hk⟩ := locked
    obtain ⟨group, hgroup, _⟩ := (valid.sections hr).grouped k hk
    exact ⟨group, hgroup⟩
  obtain ⟨outer, target, ht⟩ := live met.outer
  obtain ⟨inner, emptied, he⟩ := live met.inner
  obtain ⟨b, hb, merged⟩ := Arena.mergeGroups_merged hne ht he
  have valid' : b.Valid := merged.valid valid hne
  refine ⟨_, bind_eq_ok.mpr ⟨b, hb, rfl⟩, ?_, ?_, ?_, ?_⟩
  · exact List.length_append
  · exact ⟨valid', merged.numbered ready.numbered, merged.targetsKnown ready.known⟩
  · exact merged.coarsens valid valid' both
  · exact merged.surplus valid valid' both hne outer inner

/-- Where a pass meets a conflict, a run with repair goes on after the repair. -/
lemma run_repairing (hr : config.repair = true) (ready : Ready p.arena)
    (hp : pass p.arena config = .error (o, c)) :
    ∃ q, run config (n + 1) p = run config n q ∧ Repaired p q := by
  simp only [run, hp, hr, if_true]
  obtain ⟨q, hq, repaired⟩ := repair_repaired hr ready hp _
  exact ⟨q, by rw [hq]; rfl, repaired⟩

/-- What a run leaves that is over after some merges. -/
structure Settled (a : Arena) (config : Config) (count : Nat) (s : GroupSearch) : Prop where
  merges : s.merges.length = count
  status : s.status = if count = 0 then .acyclic else .repaired count
  iterations : s.iterations = count + 1
  ready : Ready s.arena
  coarsens : a.Coarsens s.arena
  passed : pass s.arena config = .ok s.order

/-- Where a pass meets no conflict a run is over, and leaves the arena as it is. -/
lemma run_over (ready : Ready p.arena) (hp : pass p.arena config = .ok o) :
    ∃ s, run config (n + 1) p = .ok s ∧ s.arena = p.arena ∧
      Settled p.arena config p.merges.length s := by
  simp only [run, hp]
  exact ⟨_, rfl, rfl, rfl, rfl, rfl, ready, .refl p.arena, hp⟩

/-- A run with more passes than surplus groups merges them all, and is over after one more pass. -/
theorem run_settled (hr : config.repair = true) (ready : Ready p.arena)
    (enough : p.arena.surplus < n) :
    ∃ s, run config n p = .ok s ∧ Settled p.arena config (p.merges.length + p.arena.surplus) s := by
  induction n generalizing p with
  | zero => exact absurd enough (Nat.not_lt_zero _)
  | succ n ih =>
    cases hp : pass p.arena config with
    | ok o =>
      obtain ⟨s, hs, _, settled⟩ := run_over ready hp
      rw [surplus_of_pass ready hp]
      exact ⟨s, hs, settled⟩
    | error e =>
      obtain ⟨o, c⟩ := e
      obtain ⟨q, hq, repaired⟩ := run_repairing hr ready hp
      have less := repaired.surplus
      obtain ⟨s, hs, settled⟩ := ih repaired.ready (by omega)
      have count : q.merges.length + q.arena.surplus = p.merges.length + p.arena.surplus := by
        rw [repaired.merges]
        omega
      rw [count] at settled
      exact ⟨s, hq.trans hs, { settled with coarsens := repaired.coarsens.trans settled.coarsens }⟩

/-- A run with no more passes than surplus groups uses them up. -/
theorem run_diverged (hr : config.repair = true) (ready : Ready p.arena)
    (few : n ≤ p.arena.surplus) :
    ∃ s last, run config n p = .ok s ∧ s.status = .didNotConverge config.maxIterations last := by
  induction n generalizing p with
  | zero => exact ⟨_, _, rfl, rfl⟩
  | succ n ih =>
    cases hp : pass p.arena config with
    | ok o =>
      rw [surplus_of_pass ready hp] at few
      exact absurd few (Nat.not_succ_le_zero n)
    | error e =>
      obtain ⟨o, c⟩ := e
      obtain ⟨q, hq, repaired⟩ := run_repairing hr ready hp
      have less := repaired.surplus
      obtain ⟨s, last, hs, status⟩ := ih repaired.ready (by omega)
      exact ⟨s, last, hq.trans hs, status⟩

/-- What a search with repair leaves of an arena: one group of every strongly connected
component. -/
structure Condenses (a : Arena) (config : Config) (s : GroupSearch) : Prop where
  deadlockFree : s.status.isDeadlockFree = true
  /-- There is a merge for every surplus group. -/
  merges : s.merges.length = a.surplus
  iterations : s.iterations = a.surplus + 1
  acyclic : ∀ g, ¬ s.order.Path g g
  grouped : ∀ t, (s.arena.groupOf t).isSome = (a.groupOf t).isSome
  /-- Sections end in one group if their groups were the same or preceded each other. -/
  together : ∀ {t u g h}, a.groupOf t = some g → a.groupOf u = some h →
    (s.arena.groupOf t = s.arena.groupOf u ↔
      g = h ∨ (TransGen a.Precedes g h ∧ TransGen a.Precedes h g))
  /-- Another search finds nothing to repair, and the same order. -/
  again : ∀ oracle, ∃ s', s.arena.searchGroups oracle config = .ok s' ∧ s'.status = .acyclic ∧
    s'.merges = [] ∧ s'.iterations = 1 ∧ s'.order = s.order ∧ s'.arena = s.arena

namespace Settled

variable {count : Nat} {t u : SectionId}

/-- The order that is left has no cycle. -/
lemma acyclic (hr : config.repair = true) (settled : Settled a config count s) :
    ¬ s.order.Path g g := by
  intro path
  have ordered := (pass_ok settled.passed).1
  have valid := settled.ready.valid
  have numbered := settled.ready.numbered
  rw [Digraph.path_iff_transGen] at path
  refine ordered.acyclic valid numbered (path.lift id fun x y arc => ?_)
  -- without pairs inside a group every arc is one of precedence
  obtain ⟨pair, hpair, rfl, rfl⟩ := ordered.arcs.mp arc
  obtain ⟨asked, outer, inner, enters⟩ :=
    (Arena.exists_orderingPair valid numbered).mp ⟨pair, hpair, ⟨rfl, rfl⟩, rfl, rfl⟩
  rw [Config.effectiveAllowSelfEdges, hr] at asked
  refine ⟨?_, _, _, outer, inner, enters⟩
  simpa using asked

/-- Sections end in one group exactly if they were linked. -/
lemma groupOf_eq_iff (settled : Settled a config count s) (ht : a.groupOf t = some g)
    (hu : a.groupOf u = some h) :
    s.arena.groupOf t = s.arena.groupOf u ↔ a.Entangled g h := by
  have linked : a.Linked t u ↔ a.Entangled g h := by
    constructor
    · rintro ⟨_, _, ht', hu', both⟩
      rw [ht] at ht'
      rw [hu] at hu'
      cases ht'
      cases hu'
      exact both
    · exact fun both => ⟨g, h, ht, hu, both⟩
  rw [← linked, ← settled.coarsens.linked]
  have some' : ∀ {v k}, a.groupOf v = some k → ∃ k', s.arena.groupOf v = some k' := by
    intro v k hv
    rw [← Option.isSome_iff_exists, settled.coarsens.grouped, hv]
    rfl
  constructor
  · intro same
    obtain ⟨k, hk⟩ := some' ht
    exact ⟨k, k, hk, same ▸ hk, .refl, .refl⟩
  · rintro ⟨k, k', hk, hk', both⟩
    rw [hk, hk', eq_of_entangled settled.ready settled.passed both]

/-- A search of an arena that is settled is over after one pass. -/
lemma again (settled : Settled a config count s) (hm : 1 ≤ config.maxIterations) (oracle : Oracle) :
    ∃ s', s.arena.searchGroups oracle config = .ok s' ∧ s'.status = .acyclic ∧ s'.merges = [] ∧
      s'.iterations = 1 ∧ s'.order = s.order ∧ s'.arena = s.arena := by
  obtain ⟨n, hn⟩ := Nat.exists_eq_add_of_le' hm
  have same : (start s.arena oracle).arena = s.arena := settled.ready.known.ensureAllTargets
  have ready : Ready (start s.arena oracle).arena := by
    rw [same]
    exact settled.ready
  have free : pass (start s.arena oracle).arena config = .ok s.order := by
    rw [same]
    exact settled.passed
  obtain ⟨s', hs', arena, settled'⟩ := run_over (n := n) ready free
  rw [same] at arena
  refine ⟨s', ?_, settled'.status, List.length_eq_zero_iff.mp settled'.merges, settled'.iterations,
    ?_, arena⟩
  · exact searchGroups_eq_ok.mpr ⟨Arena.validate_eq_ok.mpr settled.ready.valid, hn ▸ hs'⟩
  · have order := settled'.passed
    rw [arena, settled.passed] at order
    exact (Except.ok.inj order).symm

end Settled

end GroupSearch

/-- A search with repair merges every strongly connected component of groups into one group and does
nothing else, if it may make one pass more than there are surplus groups; otherwise it does not
converge. Every arena that the operations build is numbered (`Arena.Built.numbered`). -/
theorem searchGroups_condenses {a : Arena} {oracle : Oracle} {config : Config}
    (valid : a.validate = .ok ()) (numbered : a.Numbered) (hr : config.repair = true) :
    ((a.ensureAllTargets oracle).surplus < config.maxIterations →
      ∃ s, a.searchGroups oracle config = .ok s ∧
        GroupSearch.Condenses (a.ensureAllTargets oracle) config s) ∧
    (config.maxIterations ≤ (a.ensureAllTargets oracle).surplus →
      ∃ s last, a.searchGroups oracle config = .ok s ∧
        s.status = .didNotConverge config.maxIterations last) := by
  have ready : GroupSearch.Ready (GroupSearch.start a oracle).arena :=
    GroupSearch.ready_start (Arena.validate_eq_ok.mp valid) numbered
  constructor
  · intro enough
    obtain ⟨s, hs, settled⟩ := GroupSearch.run_settled hr ready enough
    rw [GroupSearch.start, List.length_nil, Nat.zero_add] at settled
    refine ⟨s, GroupSearch.searchGroups_eq_ok.mpr ⟨valid, hs⟩, ?_⟩
    constructor
    · rw [settled.status]
      split <;> rfl
    · exact settled.merges
    · exact settled.iterations
    · exact fun g => settled.acyclic hr
    · exact settled.coarsens.grouped
    · intro t u g h ht hu
      rw [settled.groupOf_eq_iff ht hu, Arena.entangled_iff]
    · exact settled.again (Nat.one_le_of_lt enough)
  · intro few
    obtain ⟨s, last, hs, status⟩ := GroupSearch.run_diverged hr ready few
    exact ⟨s, last, GroupSearch.searchGroups_eq_ok.mpr ⟨valid, hs⟩, status⟩

/-- Of the crossing groups the two that enter each other are merged. -/
theorem searchGroups_condenses_crossing :
    ∃ s, crossingGroups.searchGroups (fun site => [site]) { repair := true } = .ok s ∧
      s.status = .repaired 1 ∧
      GroupSearch.Condenses (crossingGroups.ensureAllTargets fun site => [site])
        { repair := true } s := by
  have surplus : (crossingGroups.ensureAllTargets fun site => [site]).surplus < 1000 :=
    lt_of_le_of_lt (Nat.sub_le _ _) (by decide)
  obtain ⟨s, hs, condenses⟩ : ∃ s,
      crossingGroups.searchGroups (fun site => [site]) { repair := true } = .ok s ∧
        GroupSearch.Condenses (crossingGroups.ensureAllTargets fun site => [site])
          { repair := true } s :=
    (searchGroups_condenses rfl numbered_crossingGroups rfl).1 surplus
  have repaired : ∃ s, crossingGroups.searchGroups (fun site => [site]) { repair := true } = .ok s ∧
      s.status = .repaired 1 := ⟨_, rfl, rfl⟩
  obtain ⟨s', hs', status⟩ := repaired
  rw [hs] at hs'
  cases hs'
  exact ⟨s, hs, status, condenses⟩

end Interlock
