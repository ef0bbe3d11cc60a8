import Interlock.Proofs.LockOrder.Consistency
import Interlock.Proofs.LockOrder.Content
import Interlock.Proofs.LockOrder.Rerun
import Interlock.Proofs.LockOrder.Steady

/-!
# Locksets under a second analysis

A second analysis repairs nothing, but it may reorder locksets again. It knows nothing of the arcs
from avoidance locks that the first one has kept, so its order has the arcs of the sections alone
(`Arena.Perceives`), and it sorts each cycle from where the first one has left it.
`Arena.analyze_resettles` says which locksets change: those in which an avoidance lock is overtaken
by a lock that is taken before it, and those in which two locks on a common cycle come in the wrong
order (`Arena.Disturbed`). Both happen (`Arena.analyze_unsettled`).

A created lock has a smaller number than all locks before it (`Progress.Descending`), and the first
analysis has put these locks at the front, newest first. Where nothing overtakes them, the views of
the two plans thus differ at the front only (`fronted_view`), so that
`LockPlan.positions_of_fronted` applies.
-/

namespace Interlock

open Relation (TransGen)

namespace LockSearch

variable {a : Arena} {p q : Progress} {k : Nat} {o : LockOrder} {c : LockConflict} {t : SectionId}
  {x y : LockNum}

/-- Each created lock has a smaller number than all locks before it. -/
structure Progress.Descending (a : Arena) (p : Progress) : Prop extends p.Filed a where
  descend : p.created.Pairwise fun x y => y < x
  least : ∀ x ∈ p.created, ∀ key n, a.locks.find? key = some n → x < n

/-- The next avoidance lock has a smaller number than all locks in the table. -/
lemma Progress.Stacked.newLock_lt (h : p.Stacked a) {key : LockKey} {n : LockNum}
    (hn : p.arena.locks.find? key = some n) : p.newLock c < n := by
  have used := (LockTable.isAllocated_iff.mp (h.allocated hn)).2
  rw [Progress.newLock, h.serials.nextLock_eq]
  show -(p.arena.locks.slotCount : Int) < (n : Int)
  omega

lemma Progress.Descending.repaired (hp : p.Descending a)
    (hs : LockOrder.Stopped p.arena p.permanent o c) : (p.repaired o c).Descending a where
  toFiled := hp.toFiled.repaired hs
  descend := by
    rw [created_repaired]
    refine List.pairwise_append.mpr ⟨hp.descend, List.pairwise_singleton _ _, ?_⟩
    intro x hx y hy
    obtain ⟨key, hk⟩ := hp.known x hx
    rw [List.mem_singleton.mp hy]
    exact hp.newLock_lt hk
  least := by
    intro x hx key n hn
    rw [created_repaired, List.mem_append, List.mem_singleton] at hx
    rcases hx with hx | rfl
    · exact hp.least x hx key n hn
    · exact hp.newLock_lt (hp.grows.numbers hn)

/-- The numbers of created locks go on to descend. -/
theorem descending_after? {oracle : Oracle} (valid : a.Valid) (free : a.locks.SerialsFree)
    (allocated : a.locks.Allocated) (h : (start a oracle).after? k = some q) :
    q.Descending (start a oracle).arena := by
  have descending : (start a oracle).Descending (start a oracle).arena :=
    { filed_start valid free allocated with
      descend := List.Pairwise.nil
      least := nofun }
  exact after?_induction descending Progress.Descending.repaired h

end LockSearch

namespace Arena

variable {a b : Arena} {oracle oracle' : Oracle} {config : Config} {found : LockSearch}
  {r : Analysis} {o : LockOrder} {s t u : SectionId} {x y n : LockNum} {created : List LockNum}

/-- A section holds both locks, and it takes the first before the second, or another section does
that it does not exclude. -/
def Perceives (a : Arena) (t : SectionId) (x y : LockNum) : Prop :=
  x ≠ y ∧ x ∈ a.held t ∧ y ∈ a.held t ∧ ∃ s, a.Orders s x y ∧ (s = t ∨ ¬ a.Excludes t s)

/-- The lockset of a section is not in the order that the sections themselves call for. -/
inductive Disturbed (a : Arena) (created : List LockNum) (t : SectionId) : Prop
  /-- A created lock comes before a lock that is taken before it. -/
  | overtaken {x y : LockNum} : [x, y].Sublist (a.held t) → x ∈ created → a.Perceives t y x →
    Disturbed a created t
  /-- Of two locks on a common cycle the second is taken before the first, or it has the smaller
  number and neither is taken before the other. -/
  | turned {x y : LockNum} : [x, y].Sublist (a.held t) → LockPlan.Joined (a.Perceives t) x y →
    a.Perceives t y x ∨ (¬ a.Perceives t x y ∧ y < x) → Disturbed a created t

lemma Shuffled.mayEnter (h : Shuffled a b) : b.mayEnter s t = a.mayEnter s t := by
  obtain ⟨_, hs, _⟩ := h.sections s
  obtain ⟨_, ht, _⟩ := h.sections t
  unfold Arena.mayEnter
  rw [hs, ht]
  cases a.sections[s]? <;> cases a.sections[t]? <;> rfl

lemma Shuffled.orders (h : Shuffled a b) : b.Orders t x y ↔ a.Orders t x y := by
  simp only [Orders, h.mem_groupedSections, h.mem_held, h.mayEnter]

lemma Shuffled.perceives (h : Shuffled a b) : b.Perceives t x y ↔ a.Perceives t x y := by
  simp only [Perceives, h.mem_held, h.orders, h.excludes]

lemma Shuffled.targetsKnown (h : Shuffled a b) (known : a.TargetsKnown) : b.TargetsKnown := by
  intro i s hs
  obtain ⟨keys, hk, _⟩ := h.sections i
  rw [hk] at hs
  obtain ⟨s', hs', rfl⟩ := Option.map_eq_some_iff.mp hs
  have same : s'.targets.isSome = true := known hs'
  exact same

/-- A view of an order of the sections' own arcs is what the sections perceive. -/
lemma view_iff_perceives (own : ∀ x y s, o.Labelled x y s ↔ x ≠ y ∧ a.Orders s x y) :
    a.View o t x y ↔ a.Perceives t x y := by
  simp only [View, Sees, Perceives, own]
  constructor
  · rintro ⟨hne, hx, hy, s, ⟨_, hs⟩, seen⟩
    exact ⟨hne, hx, hy, s, hs, seen⟩
  · rintro ⟨hne, hx, hy, s, hs, seen⟩
    exact ⟨hne, hx, hy, s, ⟨hne, hs⟩, seen⟩

/-! ## The view of a plan, with and without permanent arcs -/

section View

variable {q : LockSearch.Progress} (descending : q.Descending a)
  (labelled : ∀ x y t, o.Labelled x y t ↔
    (x ≠ y ∧ q.arena.Orders t x y) ∨ (x ∈ q.created ∧ [y, x].Sublist (q.arena.held t)))

include descending

/-- Of two created locks in a lockset the later has the smaller number. -/
lemma lt_of_createdIn (h : [x, y].Sublist (q.createdIn t)) : x ∈ q.created ∧ y < x := by
  refine ⟨List.mem_of_mem_filter (h.subset List.mem_cons_self), ?_⟩
  exact List.pairwise_iff_forall_sublist.mp descending.descend (h.trans List.filter_sublist)

/-- The sections held no created lock at the start. -/
lemma not_mem_start (hx : x ∈ q.created) : x ∉ a.held t := by
  intro h
  obtain ⟨_, key, _, _, hk⟩ := mem_held.mp h
  exact descending.fresh x hx key hk

include labelled

/-- After repairs a section sees what it perceives, and arcs from the created locks that it holds to
the locks before them. Other sections with such arcs are excluded by the created lock. -/
lemma view_iff_of_created : q.arena.View o t x y ↔
    q.arena.Perceives t x y ∨ (x ∈ q.created ∧ [y, x].Sublist (q.arena.held t)) := by
  simp only [View, Sees, labelled]
  constructor
  · rintro ⟨hne, hx, hy, s, ⟨_, hs⟩ | ⟨hc, pair⟩, seen⟩
    · exact .inl ⟨hne, hx, hy, s, hs, seen⟩
    · have hxs : x ∈ q.arena.held s := pair.subset (List.mem_cons_of_mem y List.mem_cons_self)
      obtain ⟨c, hcr, hcx⟩ := List.mem_filterMap.mp hc
      have shared : q.arena.Excludes t s :=
        excludes_iff.mpr ⟨x, descending.static hcr hcx, hx, hxs⟩
      obtain rfl : s = t := seen.resolve_right fun hn => hn shared
      exact .inr ⟨hc, pair⟩
  · rintro (⟨hne, hx, hy, s, hs, seen⟩ | ⟨hc, pair⟩)
    · exact ⟨hne, hx, hy, s, .inl ⟨hne, hs⟩, seen⟩
    · exact ⟨(descending.arcs hc pair).1, pair.subset (List.mem_cons_of_mem y List.mem_cons_self),
        pair.subset List.mem_cons_self, t, .inr ⟨hc, pair⟩, .inl rfl⟩

variable (valid : a.Valid) {s : Section} (hs : a.sections[t]? = some s)

include valid hs

/-- A reordered lockset has the created locks that the section holds first, newest first, and then
those of the start. -/
lemma held_reordered (labels : o.LabelsGrouped q.arena)
    (fault : (q.arena.reorder o).fault = none) :
    ∃ old, (q.arena.reorder o).arena.held t = (q.createdIn t).reverse ++ old ∧
      ∀ n ∈ old, n ∈ a.held t := by
  have kept : ∀ {x y t}, q.permanent.Labelled x y t → o.Labelled x y t := fun hl =>
    (labelled _ _ _).mpr (.inr (descending.stored hl))
  obtain ⟨s', news, old, hs', hk, perm, hn⟩ :=
    descending.toStacked.reorder_newest valid kept labels fault hs
  have locks := (reorder_shuffled labels fault).locks
  refine ⟨old.filterMap q.arena.locks.find?, ?_, ?_⟩
  · have numbers : news.filterMap (q.arena.reorder o).arena.locks.find? =
        (q.createdIn t).reverse := by
      have mapped := congrArg (List.filterMap id) hn
      rwa [List.filterMap_map, List.filterMap_map, Function.id_comp, Function.id_comp,
        List.filterMap_some] at mapped
    rw [held, hs']
    dsimp only
    rw [hk, List.filterMap_append, numbers, locks]
  · intro n hn
    obtain ⟨key, hkey, hf⟩ := List.mem_filterMap.mp hn
    obtain ⟨m, hm⟩ := (valid.sections hs).keys key (perm.mem_iff.mp hkey)
    obtain rfl : m = n := Option.some.inj ((descending.grows.numbers hm).symm.trans hf)
    exact mem_held.mpr ⟨s, key, hs, perm.mem_iff.mp hkey, hm⟩

/-- Where no created lock is overtaken, what the section saw and what it perceives differ in arcs
from the created locks only. -/
lemma fronted_view (shuffled : Shuffled q.arena b) {old : List LockNum}
    (shape : b.held t = (q.createdIn t).reverse ++ old) (start : ∀ n ∈ old, n ∈ a.held t)
    (calm : ¬ b.Disturbed q.created t) :
    Fronted (· ∈ q.created) (q.arena.View o t) (b.Perceives t) := by
  have into : ∀ {x y}, y ∈ q.created → b.Perceives t x y → x ∈ q.created ∧ x < y := by
    intro x y hy hxy
    have ⟨hne, hx, hy', _⟩ := hxy
    rcases sublist_pair hx hy' hne with pair | pair
    · rw [shape] at pair
      have inside := pair_sublist_append_left
        (fun ho => not_mem_start descending hy (start y ho)) pair
      have back : [y, x].Sublist (q.createdIn t) := List.reverse_sublist.mp (by simpa using inside)
      exact ⟨List.mem_of_mem_filter (back.subset (List.mem_cons_of_mem y List.mem_cons_self)),
        (lt_of_createdIn descending back).2⟩
    · exact absurd (.overtaken pair hy hxy) calm
  have view : ∀ x y, q.arena.View o t x y ↔
      b.Perceives t x y ∨ (x ∈ q.created ∧ [y, x].Sublist (q.arena.held t)) := by
    intro x y
    rw [view_iff_of_created descending labelled, shuffled.perceives]
  refine ⟨?_, into, ?_⟩
  · intro x y hy hxy
    rcases (view x y).mp hxy with hxy | ⟨hx, pair⟩
    · exact into hy hxy
    · rw [descending.held_eq valid hs] at pair
      have inside := pair_sublist_append_right (not_mem_start descending hy) pair
      exact ⟨hx, (lt_of_createdIn descending inside).2⟩
  · intro x y hx
    rw [view]
    exact or_iff_left fun h => hx h.1

end View

/-- The plan that an analysis makes leaves a lockset alone that another one has put in order, if it
is not disturbed. -/
lemma steady_of_found (free : a.locks.SerialsFree) (allocated : a.locks.Allocated)
    (hf : a.searchLocks oracle config = .ok found) (clean : found.status.isDeadlockFree = true)
    {p : LockPlan} (ht : t ∈ found.arena.groupedSections)
    (hb : b = (found.arena.reorder found.order).arena) (hp : p.locks = b.held t)
    (hv : p.View = b.Perceives t) (calm : ¬ b.Disturbed found.avoidanceLocks t) :
    p.positions = List.range p.locks.length := by
  have labels := (clean_of_deadlockFree hf clean).grouped
  obtain ⟨fault, _, _⟩ := reorder_found hf clean
  have valid := validate_eq_ok.mp (searchLocks_eq_ok.mp hf).1
  obtain ⟨k, q, hk, _, arena, created, _, labelled⟩ := filed_found free allocated hf clean
  have descending := LockSearch.descending_after? valid free allocated hk
  rw [arena] at ht hb labels fault
  rw [created] at calm
  obtain ⟨u, hu, _⟩ := mem_groupedSections.mp ht
  obtain ⟨more, hm⟩ := descending.grows.sections t
  rw [hu] at hm
  obtain ⟨s, hs, _⟩ := Option.map_eq_some_iff.mp hm.symm
  obtain ⟨old, shape, start⟩ :=
    held_reordered descending labelled valid.ensureAllTargets hs labels fault
  obtain ⟨first, hfirst, hview, put⟩ := reorder_planned labels fault ht
  rw [← hb] at shape put
  have fronted := fronted_view descending labelled valid.ensureAllTargets hs
    (hb ▸ .of_reorder fault) shape start calm
  have view : first.View = q.arena.View found.order t := funext₂ fun x y => propext (hview x y)
  rw [← view, ← hv] at fronted
  refine LockPlan.positions_of_fronted (hp.trans put.symm) fronted ?_ ?_
  · -- a lock that is not a created one was in the table from the start
    intro x _ y hy hx hn
    rw [hfirst, descending.held_eq valid.ensureAllTargets hs, List.mem_append] at hy
    rcases hy with hy | hy
    · obtain ⟨_, key, _, _, hkey⟩ := mem_held.mp hy
      exact descending.least x hx key y hkey
    · exact absurd (List.mem_of_mem_filter hy) hn
  · intro x y pair joined
    rw [Bool.eq_false_iff]
    intro wrong
    rw [LockPlan.precedes_iff (pair.subset (List.mem_cons_of_mem x List.mem_cons_self))
      (pair.subset List.mem_cons_self)] at wrong
    rw [hv] at joined wrong
    rw [hp] at pair
    exact calm (.turned pair joined wrong)

/-! ## The second analysis -/

/-- A search that leaves no deadlock was permitted a pass. -/
lemma passes_of_clean (h : a.searchLocks oracle config = .ok found)
    (clean : found.status.isDeadlockFree = true) : 1 ≤ config.maxIterations := by
  obtain ⟨_, rfl⟩ := searchLocks_eq_ok.mp h
  refine Nat.one_le_iff_ne_zero.mpr ?_
  intro zero
  rw [zero] at clean
  cases clean

/-- A search that repairs nothing leaves the sections' own arcs. -/
lemma own_of_clear (hf : a.searchLocks oracle config = .ok found)
    (status : found.status.isDeadlockFree = true) (repairs : found.repairs = [])
    (arena : found.arena = a) (x y : LockNum) (s : SectionId) :
    found.order.Labelled x y s ↔ x ≠ y ∧ a.Orders s x y := by
  have cleaned := clean_of_deadlockFree hf status
  rw [← arena]
  constructor
  · intro hl
    rcases cleaned.sound hl with own | ⟨hc, _⟩
    · exact own
    · rw [LockSearch.avoidanceLocks, repairs] at hc
      cases hc
  · rintro ⟨hne, hs⟩
    exact cleaned.complete hne hs

/-- A section has its locks in the order of a plan that sees what the section perceives. -/
lemma PlannedKeys.perceived {keys : List LockKey} (h : a.PlannedKeys o t keys)
    (own : ∀ x y s, o.Labelled x y s ↔ x ≠ y ∧ a.Orders s x y) :
    ∃ (u : Section) (p : LockPlan), a.sections[t]? = some u ∧ p.locks = a.held t ∧
      p.locks.length = u.lockset.length ∧ p.View = a.Perceives t ∧
      keys = p.positions.filterMap (u.lockset[·]?) := by
  obtain ⟨u, p, hu, hn, hv, rfl⟩ := h
  have count := congrArg List.length hn
  rw [List.length_map, List.length_map] at count
  refine ⟨u, p, hu, (held_of_lockNums (lockNums_eq_ok.mpr ⟨u, hu, hn⟩)).symm, count.symm, ?_, rfl⟩
  funext x y
  exact propext ((hv x y).trans (view_iff_perceives own))

/-- A plan moves something in a disturbed lockset. -/
lemma Disturbed.positions_ne {p : LockPlan} (hp : p.locks = a.held t) (hv : p.View = a.Perceives t)
    (h : a.Disturbed created t) : p.positions ≠ List.range p.locks.length := by
  intro still
  cases h with
  | overtaken pair hx hyx =>
    rw [← hp] at pair
    rw [← hv] at hyx
    obtain ⟨joined, settled⟩ := LockPlan.settled_of_positions still pair
    have moved := (LockPlan.precedes_iff hyx.1 hyx.2.1).mpr (.inl hyx)
    rw [settled (joined hyx)] at moved
    cases moved
  | turned pair hj wrong =>
    rw [← hp] at pair
    rw [← hv] at hj wrong
    have hx := pair.subset List.mem_cons_self
    have hy := pair.subset (List.mem_cons_of_mem _ List.mem_cons_self)
    have moved := (LockPlan.precedes_iff hy hx).mpr wrong
    rw [(LockPlan.settled_of_positions still pair).2 hj] at moved
    cases moved

/-- A list without duplicates is rearranged by any other list of its positions than the ascending
one. -/
lemma positions_of_filterMap {keys : List LockKey} {positions : List Nat} (nodup : keys.Nodup)
    (perm : positions.Perm (List.range keys.length))
    (h : positions.filterMap (keys[·]?) = keys) : positions = List.range keys.length := by
  have inside : ∀ i ∈ positions, i < keys.length := fun i hi =>
    List.mem_range.mp (perm.mem_iff.mp hi)
  have count : positions.length = keys.length := by
    rw [perm.length_eq, List.length_range]
  have found : ∀ {positions : List Nat}, (∀ i ∈ positions, i < keys.length) →
      positions.map (keys[·]?) = (positions.filterMap (keys[·]?)).map some := by
    intro positions inside
    induction positions with
    | nil => rfl
    | cons i rest ih =>
      obtain ⟨hi, inside⟩ := List.forall_mem_cons.mp inside
      rw [List.map_cons, ih inside, List.filterMap_cons, List.getElem?_eq_getElem hi]
      rfl
  have same := found inside
  rw [h] at same
  refine List.ext_getElem (by rw [count, List.length_range]) ?_
  intro i hi _
  have hk : i < keys.length := count ▸ hi
  have at_i := congrArg (·[i]?) same
  simp only [List.getElem?_map, List.getElem?_eq_getElem hi, List.getElem?_eq_getElem hk,
    Option.map_some, Option.some.injEq] at at_i
  obtain ⟨hp, hkey⟩ := List.getElem?_eq_some_iff.mp at_i
  rw [List.getElem_range]
  exact (nodup.getElem_inj_iff).mp hkey

/-- The second arena is the first after another analysis, which has moved only what was
disturbed. -/
structure Resettled (created : List LockNum) (a b : Arena) : Prop where
  /-- Nothing but the order of locks in locksets is different. -/
  shuffled : Shuffled a b
  groups : b.groups = a.groups
  /-- The locksets that are not disturbed are kept, and those of sections of no group. -/
  kept : ∀ {t}, t ∉ a.groupedSections ∨ ¬ a.Disturbed created t →
    b.sections[t]? = a.sections[t]?
  /-- A disturbed lockset changes, if it names no key twice. -/
  moved : ∀ {t s}, t ∈ a.groupedSections → a.sections[t]? = some s → s.lockset.Nodup →
    a.Disturbed created t → b.sections[t]? ≠ some s

/-- A reordering by the sections' own arcs moves what is disturbed, and nothing else if the plans of
the others leave their locksets alone. -/
lemma resettled_of_reorder (labels : o.LabelsGrouped a) (fault : (a.reorder o).fault = none)
    (own : ∀ x y s, o.Labelled x y s ↔ x ≠ y ∧ a.Orders s x y)
    (steady : ∀ {t} {p : LockPlan}, t ∈ a.groupedSections → p.locks = a.held t →
      p.View = a.Perceives t → ¬ a.Disturbed created t → p.positions = List.range p.locks.length) :
    Resettled created a (a.reorder o).arena := by
  have shuffled := reorder_shuffled labels fault
  refine ⟨shuffled.toShuffled, groups_reorderEach, ?_, ?_⟩
  · intro t ht
    by_cases hg : t ∈ a.groupedSections
    · obtain ⟨v, hv, keys⟩ := shuffled.planned hg
      obtain ⟨u, p, hu, hp, count, hview, hk⟩ := keys.perceived own
      have still := steady hg hp hview (ht.resolve_left fun hn => hn hg)
      rw [still, count, List.range_eq_range', LockPlan.filterMap_range', List.drop_zero,
        List.take_length] at hk
      obtain ⟨keys', hsec, _⟩ := shuffled.sections t
      rw [hv, hu, Option.map_some, Option.some.injEq] at hsec
      have same : keys' = u.lockset := by
        rw [← hk, hsec]
      rw [hv, hu, hsec, same]
    · exact reorderEach_ungrouped hg
  · intro t s hg hs nodup disturbed same
    obtain ⟨v, hv, keys⟩ := shuffled.planned hg
    obtain ⟨u, p, hu, hp, count, hview, hk⟩ := keys.perceived own
    rw [same] at hv
    rw [hs] at hu
    cases hu
    cases hv
    refine disturbed.positions_ne hp hview ?_
    rw [count]
    exact positions_of_filterMap nodup (count ▸ LockPlan.positions_perm) hk.symm

/-- After an analysis that leaves no deadlock and puts the locksets in order, a second one finds
nothing to repair. It changes the locksets that are disturbed, and counts these. -/
theorem analyze_resettles (mode : config.mode = .lockset) (asked : config.reorderLocksets = true)
    (free : a.locks.SerialsFree) (allocated : a.locks.Allocated)
    (hr : a.analyze oracle config = .ok r) (clean : r.report.status.isDeadlockFree = true)
    (oracle' : Oracle) :
    ∃ r', r.arena.analyze oracle' config = .ok r' ∧ r'.report.status = .acyclic ∧
      r'.report.repairs = [] ∧
      Resettled (r.report.avoidanceLocks.map (·.lock)) r.arena r'.arena ∧
      r'.report.reorderedSections =
        r.arena.sectionIds.countP fun t => r'.arena.sections[t]? ≠ r.arena.sections[t]? := by
  obtain ⟨valid', clear⟩ := analyzed_clear mode hr clean oracle'
  obtain ⟨found, hf, reports⟩ := exists_found mode hr
  rw [reports.status, Status.isDeadlockFree_map] at clean
  have labels := (clean_of_deadlockFree hf clean).grouped
  obtain ⟨fault, _, _⟩ := reorder_found hf clean
  have shuffled := reorder_shuffled labels fault
  have left : r.arena = (found.arena.reorder found.order).arena := by
    rw [reports.arena, asked, clean]
    rfl
  have known : r.arena.TargetsKnown := by
    rw [left]
    exact shuffled.targetsKnown (targetsKnown_found hf)
  have created : r.report.avoidanceLocks.map (·.lock) = found.avoidanceLocks := by
    rw [reports.avoidanceLocks, List.map_map]
    exact List.map_id _
  -- the second search finds the sections' own arcs in the arena that the first analysis left
  obtain ⟨found', hf', status, _, repairs, arena'⟩ :=
    searchLocks_clean valid' clear (passes_of_clean hf clean)
  have clean' : found'.status.isDeadlockFree = true := by
    rw [status]
    rfl
  rw [known.ensureAllTargets] at arena'
  have own := own_of_clear hf' clean' repairs arena'
  have labels' := (clean_of_deadlockFree hf' clean').grouped
  obtain ⟨fault', _, _⟩ := reorder_found hf' clean'
  obtain ⟨r', hr', reports'⟩ := analyze_of_found mode hf'
  have left' : r'.arena = (r.arena.reorder found'.order).arena := by
    rw [reports'.arena, asked, clean', arena']
    rfl
  rw [arena'] at labels' fault'
  refine ⟨r', hr', ?_, ?_, ?_, ?_⟩
  · rw [reports'.status, status]
    rfl
  · rw [reports'.repairs, repairs]
    rfl
  · rw [left', created]
    refine resettled_of_reorder labels' fault' own ?_
    intro t p ht hp hv calm
    rw [left, shuffled.mem_groupedSections] at ht
    exact steady_of_found free allocated hf clean ht left hp hv calm
  · rw [reports'.reordered, asked, clean', left', arena']
    exact (changed_reorderEach List.nodup_range).trans (Nat.zero_add _)

/-- A second analysis of the crossing sections moves what the first one has left disturbed. -/
theorem analyze_resettles_crossing :
    ∃ r, crossing.analyze (fun site => [site]) (.ofPreset .repair) = .ok r ∧
      r.report.status = .repaired 2 ∧
      ∃ r', r.arena.analyze (fun site => [site]) (.ofPreset .repair) = .ok r' ∧
        r'.report.status = .acyclic ∧ r'.report.repairs = [] ∧
        Resettled (r.report.avoidanceLocks.map (·.lock)) r.arena r'.arena ∧
        r'.report.reorderedSections =
          r.arena.sectionIds.countP fun t => r'.arena.sections[t]? ≠ r.arena.sections[t]? := by
  obtain ⟨r, hr, status⟩ :
      ∃ r, crossing.analyze (fun site => [site]) (.ofPreset .repair) = .ok r ∧
        r.report.status = .repaired 2 := ⟨_, rfl, rfl⟩
  have free : crossing.locks.SerialsFree := by
    intro serial owner _
    rfl
  have allocated : crossing.locks.Allocated := LockTable.allocated_of_numbers (by decide)
  have clean : r.report.status.isDeadlockFree = true := by
    rw [status]
    rfl
  exact ⟨r, hr, status, analyze_resettles rfl rfl free allocated hr clean _⟩

/-- Two locks are taken in both orders by sections that no section enters, in an arena where the key
of the first avoidance lock to come is registered for a lock in the heap. -/
def detourForged : Arena where
  sections :=
    [.closed 0 [1] [.value "A"], .closed 1 [] [.value "B"], .closed 2 [3] [.value "B"],
      .closed 3 [] [.value "A"]]
  groups := [{ number := 1, members := .ofList [0, 1, 2, 3] }]
  locks :=
    { numbers := [(.value "A", 1), (.value "B", 2), (.avoidance 0 "App", 3)]
      slots := List.replicate 3 .empty }

/-- A second analysis may move an avoidance lock behind the locks that it came before, and it may
turn two locks on a common cycle round, which takes no repair. If a forged key makes an avoidance
lock dynamic, it may move that lock where no section takes any lock before it. -/
theorem analyze_unsettled :
    (Config.ofPreset .repair).validate = .ok () ∧
      (∃ r r', crossing.analyze (fun site => [site]) (.ofPreset .repair) = .ok r ∧
        r.report.status = .repaired 2 ∧ r.arena.held 1 = [-4, 1, 2] ∧
        r.arena.analyze (fun site => [site]) (.ofPreset .repair) = .ok r' ∧
        r'.arena.held 1 = [2, 1, -4] ∧ r'.report.reorderedSections = 2) ∧
      (∃ r r', sharedCycle.analyze (fun site => [site]) (.ofPreset .repair) = .ok r ∧
        r.report.status = .acyclic ∧ r.arena.held 4 = [2, 1] ∧
        r.arena.analyze (fun site => [site]) (.ofPreset .repair) = .ok r' ∧
        r'.arena.held 4 = [1, 2] ∧ r'.report.reorderedSections = 2) ∧
      ∃ r r', detourForged.analyze (fun site => [site]) (.ofPreset .repair) = .ok r ∧
        r.report.status = .repaired 2 ∧ r.arena.held 0 = [-4, 3, 1] ∧
        r.arena.analyze (fun site => [site]) (.ofPreset .repair) = .ok r' ∧
        r'.arena.held 0 = [-4, 1, 3] ∧ r'.report.reorderedSections = 2 := by
  refine ⟨by decide, ⟨_, _, rfl, rfl, ?_, rfl, ?_, ?_⟩, ⟨_, _, rfl, rfl, ?_, rfl, ?_, ?_⟩,
    ⟨_, _, rfl, rfl, ?_, rfl, ?_, ?_⟩⟩
  all_goals decide +kernel

end Arena

end Interlock
