import Interlock.Proofs.LockOrder.Ring
import Mathlib.Data.List.Forall2

/-!
# The verdict of a search without repair

Without repair a search reports a deadlock exactly where two locks are opposed (`Arena.Opposed`):
two sections that do not exclude each other, or one section that does not exclude itself, take them
in opposed orders. The arcs of a pass without a conflict are settled, so opposed locks stop it
(`LockOrder.pass_ok_not_opposed`), and a pass that stops has found opposed locks
(`LockOrder.Stopped.opposed`).

Opposed locks are a matter of what the sections hold and enter, not of their order or of the order
of their locks (`Rearranged.opposed`), so neither is the verdict.
-/

namespace Interlock

namespace Arena

/-- Two locks are taken in opposed orders by sections that do not exclude each other, or by one
section that holds no static lock. -/
def Opposed (a : Arena) : Prop :=
  ∃ x y s t, x ≠ y ∧ a.Orders s x y ∧ a.Orders t y x ∧ ¬ a.Excludes s t

end Arena

/-- Sections that differ in their names and numbers and in the order of their locks at most. -/
structure Section.Alike (s t : Section) : Prop where
  method : t.method = s.method
  invokes : t.invokes = s.invokes
  targets : t.targets = s.targets
  grouped : t.isGrouped = s.isGrouped
  lockset : s.lockset.Perm t.lockset

lemma Section.Alike.symm {s t : Section} (h : s.Alike t) : t.Alike s :=
  ⟨h.method.symm, h.invokes.symm, h.targets.symm, h.grouped.symm, h.lockset.symm⟩

/-- Alike sections get the same targets. -/
lemma Section.Alike.withTargets {s t : Section} (h : s.Alike t) (oracle : Oracle) :
    (s.withTargets oracle).Alike (t.withTargets oracle) := by
  unfold Section.withTargets
  rw [h.targets]
  split
  · exact h
  · exact ⟨h.method, h.invokes, by rw [h.invokes], h.grouped, h.lockset⟩

/-- The second arena has the locks and the sections of the first, the sections in any order and each
lockset in any order. -/
def Arena.Rearranged (a b : Arena) : Prop :=
  b.locks = a.locks ∧ ∃ l, List.Forall₂ Section.Alike a.sections l ∧ l.Perm b.sections

namespace LockOrder

variable {arena : Arena} {permanent o : LockOrder} {c : LockConflict}

/-- A pass that meets no conflict goes over no opposed locks. -/
lemma pass_ok_not_opposed (h : pass arena permanent = .ok o) : ¬ arena.Opposed := by
  rintro ⟨x, y, s, t, hne, hxy, hyx, hx⟩
  exact hx (pass_ok_excludes h hne hxy hyx)

/-- Where no arc is permanent, the arc back of a stopped pass is that of a grouped section. -/
lemma Stopped.orders_back (h : Stopped arena .empty o c) :
    c.requested ≠ c.held ∧ ∃ t, arena.Orders t c.requested c.held ∧
      o.Labelled c.requested c.held t ∧ ¬ arena.Excludes c.outer t := by
  obtain ⟨t, hl, hx⟩ := h.back
  rcases h.sound hl with hp | ⟨hne, hord⟩
  · exact absurd hp not_labelled_empty
  · exact ⟨hne, t, hord, hl, hx⟩

/-- Where no arc is permanent, a stopped pass has found opposed locks. -/
lemma Stopped.opposed (h : Stopped arena .empty o c) : arena.Opposed := by
  obtain ⟨hne, t, hord, _, hx⟩ := h.orders_back
  exact ⟨c.held, c.requested, c.outer, t, hne.symm, h.orders, hord, hx⟩

end LockOrder

namespace Arena

variable {a b : Arena} {oracle : Oracle} {t t' u u' : SectionId} {x y : LockNum}

/-- A section of the first arena is alike to one of the second. -/
def Match (a b : Arena) (t t' : SectionId) : Prop :=
  ∃ s s', a.sections[t]? = some s ∧ b.sections[t']? = some s' ∧ s.Alike s'

/-- Every section of the first arena is alike to one of the second, with the same locks. -/
structure Covered (a b : Arena) : Prop where
  locks : b.locks = a.locks
  sections : ∀ t, t < a.sections.length → ∃ t', a.Match b t t'

/-- Matched sections are both grouped or both not. -/
lemma Match.grouped (h : a.Match b t t') (ht : t ∈ a.groupedSections) :
    t' ∈ b.groupedSections := by
  obtain ⟨s, s', hs, hs', alike⟩ := h
  obtain ⟨s1, hs1, hg⟩ := mem_groupedSections.mp ht
  rw [hs] at hs1
  cases hs1
  exact mem_groupedSections.mpr ⟨s', hs', alike.grouped.trans hg⟩

/-- Matched sections hold the same locks. -/
lemma Match.held (hl : b.locks = a.locks) (h : a.Match b t t') : x ∈ b.held t' ↔ x ∈ a.held t := by
  obtain ⟨s, s', hs, hs', alike⟩ := h
  simp only [mem_held, hs, hs', Option.some.injEq, hl]
  constructor
  · rintro ⟨_, key, rfl, hk, hf⟩
    exact ⟨s, key, rfl, alike.lockset.mem_iff.mpr hk, hf⟩
  · rintro ⟨_, key, rfl, hk, hf⟩
    exact ⟨s', key, rfl, alike.lockset.mem_iff.mp hk, hf⟩

/-- Matched sections enter matched sections. -/
lemma Match.mayEnter (h : a.Match b t t') (k : a.Match b u u') :
    b.mayEnter t' u' = a.mayEnter t u := by
  obtain ⟨s, s', hs, hs', hst⟩ := h
  obtain ⟨r, r', hr, hr', hru⟩ := k
  simp only [Arena.mayEnter, hs, hs', hr, hr', Section.enters, hst.targets, hru.method]

/-- A section that exists has a match. -/
lemma Covered.exists_match (h : Covered a b) (ht : t ∈ a.groupedSections) :
    ∃ t', a.Match b t t' := by
  obtain ⟨s, hs, _⟩ := mem_groupedSections.mp ht
  obtain ⟨hlt, _⟩ := List.getElem?_eq_some_iff.mp hs
  exact h.sections t hlt

/-- Matched sections take the same locks before each other. -/
lemma Covered.orders (h : Covered a b) (hm : a.Match b t t') (ho : a.Orders t x y) :
    b.Orders t' x y := by
  obtain ⟨ht, hx, u, hu, he, hy⟩ := ho
  obtain ⟨u', hm'⟩ := h.exists_match hu
  refine ⟨hm.grouped ht, (hm.held h.locks).mpr hx, u', hm'.grouped hu, ?_, ?_⟩
  · rw [hm.mayEnter hm']
    exact he
  · exact (hm'.held h.locks).mpr hy

/-- Matched sections exclude each other alike. -/
lemma Covered.excludes (h : Covered a b) (hm : a.Match b t t') (hm' : a.Match b u u')
    (hx : b.Excludes t' u') : a.Excludes t u := by
  obtain ⟨n, hn, ht, hu⟩ := excludes_iff.mp hx
  exact excludes_iff.mpr ⟨n, hn, (hm.held h.locks).mp ht, (hm'.held h.locks).mp hu⟩

/-- Opposed locks stay opposed where every section is covered. -/
lemma Covered.opposed (h : Covered a b) (ho : a.Opposed) : b.Opposed := by
  obtain ⟨x, y, s, t, hne, hxy, hyx, hx⟩ := ho
  obtain ⟨s', hs⟩ := h.exists_match hxy.1
  obtain ⟨t', ht⟩ := h.exists_match hyx.1
  exact ⟨x, y, s', t', hne, h.orders hs hxy, h.orders ht hyx, fun hx' => hx (h.excludes hs ht hx')⟩

/-- Targets that are asked for cover each other. -/
lemma Covered.ensureAllTargets (h : Covered a b) :
    Covered (a.ensureAllTargets oracle) (b.ensureAllTargets oracle) := by
  refine ⟨h.locks, ?_⟩
  intro t ht
  simp only [Arena.ensureAllTargets, List.length_map] at ht
  obtain ⟨t', s, s', hs, hs', alike⟩ := h.sections t ht
  refine ⟨t', s.withTargets oracle, s'.withTargets oracle, ?_, ?_, alike.withTargets oracle⟩
  · simp [Arena.ensureAllTargets, hs]
  · simp [Arena.ensureAllTargets, hs']

/-- What is rearranged is covered. -/
lemma Rearranged.covered (h : Rearranged a b) : Covered a b := by
  obtain ⟨hlocks, l, hall, hperm⟩ := h
  refine ⟨hlocks, ?_⟩
  intro t ht
  have htl : t < l.length := hall.length_eq ▸ ht
  obtain ⟨t', ht', he⟩ := List.getElem_of_mem (hperm.mem_iff.mp (List.getElem_mem htl))
  refine ⟨t', a.sections[t], l[t], List.getElem?_eq_getElem ht, ?_, hall.get ht htl⟩
  rw [← he]
  exact List.getElem?_eq_getElem ht'

/-- What is rearranged covers. -/
lemma Rearranged.covers (h : Rearranged a b) : Covered b a := by
  obtain ⟨hlocks, l, hall, hperm⟩ := h
  refine ⟨hlocks.symm, ?_⟩
  intro t' ht'
  obtain ⟨t, htl, he⟩ := List.getElem_of_mem (hperm.mem_iff.mpr (List.getElem_mem ht'))
  have ht : t < a.sections.length := hall.length_eq ▸ htl
  refine ⟨t, b.sections[t'], a.sections[t], List.getElem?_eq_getElem ht',
    List.getElem?_eq_getElem ht, ?_⟩
  rw [← he]
  exact (hall.get ht htl).symm

/-- Opposed locks do not depend on the order of sections and of their locks. -/
lemma Rearranged.opposed (h : Rearranged a b) :
    (b.ensureAllTargets oracle).Opposed ↔ (a.ensureAllTargets oracle).Opposed :=
  ⟨h.covers.ensureAllTargets.opposed, h.covered.ensureAllTargets.opposed⟩

end Arena

/-- A conflict that a search without repair reports, with the arcs that show it. -/
structure LockSearch.Witnessed (s : LockSearch) (c : LockConflict) : Prop where
  /-- The outer section enters the inner one, and both are grouped. -/
  entered : (c.outer, c.inner) ∈ s.arena.enteredPairs
  distinct : c.held ≠ c.requested
  held : c.held ∈ s.arena.held c.outer
  requested : c.requested ∈ s.arena.held c.inner
  forward : s.order.Labelled c.held c.requested c.outer
  /-- Some section takes the two locks the other way round and does not exclude the outer one. -/
  back : ∃ t, s.arena.Orders t c.requested c.held ∧ s.order.Labelled c.requested c.held t ∧
    ¬ s.arena.Excludes c.outer t

/-- What a search without repair finds out about an arena. -/
structure LockSearch.Decides (a : Arena) (oracle : Oracle) (config : Config) (s : LockSearch) :
    Prop where
  arena : s.arena = a.ensureAllTargets oracle
  reported : s.status.isDeadlockReported = true ↔ s.arena.Opposed
  otherwise : s.status.isDeadlockReported = false → s.status = .acyclic
  witnessed : ∀ c, s.status = .deadlockReported c → s.Witnessed c
  /-- The verdict does not depend on the order of the sections or of the locks of a section. -/
  rearranged : ∀ b s', a.Rearranged b → b.searchLocks oracle config = .ok s' →
    s'.status.isDeadlockReported = s.status.isDeadlockReported

namespace LockSearch

variable {a b : Arena} {oracle : Oracle} {config : Config} {s : LockSearch} {c : LockConflict}
  {o : LockOrder} {p : Progress} {n : Nat}

/-- The reported order shows the conflict of a pass without permanent arcs. -/
lemma witnessed_report (hp : p.permanent = .empty)
    (h : LockOrder.pass p.arena p.permanent = .error (o, c)) : (p.report o c).Witnessed c := by
  have hs := LockOrder.pass_error h
  rw [hp] at hs
  obtain ⟨hne, t, hord, hl, hx⟩ := hs.orders_back
  have horder : (p.report o c).order = o.addArc c.held c.requested c.outer := if_neg hne.symm
  refine ⟨hs.entered, hne.symm, hs.held, hs.requested, ?_, t, hord, ?_, hx⟩
  · rw [horder]
    exact LockOrder.labelled_addArc.mpr (.inl ⟨rfl, rfl, rfl⟩)
  · rw [horder]
    exact LockOrder.labelled_addArc.mpr (.inr hl)

/-- A run without repair reports a deadlock exactly where locks are opposed. -/
lemma run_reported (hr : config.repair = false) :
    (run config (n + 1) (start a oracle)).status.isDeadlockReported = true ↔
      (a.ensureAllTargets oracle).Opposed := by
  rw [run_reporting hr]
  cases h : LockOrder.pass (start a oracle).arena (start a oracle).permanent with
  | ok o =>
    exact ⟨nofun, fun ho => absurd ho (LockOrder.pass_ok_not_opposed h)⟩
  | error e =>
    obtain ⟨o, c⟩ := e
    exact ⟨fun _ => (LockOrder.pass_error h).opposed, fun _ => rfl⟩

end LockSearch

/-- A search of a valid arena without repair reports a deadlock exactly where locks are opposed, and
shows it by its conflict and its order. -/
theorem searchLocks_decides {a : Arena} {oracle : Oracle} {config : Config}
    (valid : a.validate = .ok ()) (hr : config.repair = false) (hm : 1 ≤ config.maxIterations) :
    ∃ s, a.searchLocks oracle config = .ok s ∧ LockSearch.Decides a oracle config s := by
  obtain ⟨n, hn⟩ := Nat.exists_eq_add_of_le' hm
  refine ⟨_, Arena.searchLocks_eq_ok.mpr ⟨valid, rfl⟩, ?_⟩
  rw [hn]
  have verdict :
      (LockSearch.run config (n + 1) (LockSearch.start a oracle)).status.isDeadlockReported =
        true ↔ (a.ensureAllTargets oracle).Opposed := LockSearch.run_reported hr
  have same : ∀ b s', a.Rearranged b → b.searchLocks oracle config = .ok s' →
      s'.status.isDeadlockReported =
        (LockSearch.run config (n + 1) (LockSearch.start a oracle)).status.isDeadlockReported := by
    intro b s' hab hs'
    obtain ⟨_, rfl⟩ := Arena.searchLocks_eq_ok.mp hs'
    rw [hn, Bool.eq_iff_iff, verdict, LockSearch.run_reported hr]
    exact hab.opposed
  rw [LockSearch.run_reporting hr] at verdict same ⊢
  cases h : LockOrder.pass (LockSearch.start a oracle).arena
    (LockSearch.start a oracle).permanent with
  | ok o =>
    rw [h] at verdict same
    exact ⟨rfl, verdict, fun _ => rfl, nofun, same⟩
  | error e =>
    obtain ⟨o, c⟩ := e
    rw [h] at verdict same
    refine ⟨rfl, verdict, nofun, ?_, same⟩
    intro d hd
    cases hd
    exact LockSearch.witnessed_report rfl h

/-- The crossing sections are reported. -/
theorem searchLocks_decides_crossing :
    ∃ s, crossing.searchLocks (fun site => [site]) {} = .ok s ∧
      LockSearch.Decides crossing (fun site => [site]) {} s :=
  searchLocks_decides rfl rfl (by decide)

end Interlock
