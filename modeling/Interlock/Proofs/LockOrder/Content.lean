import Interlock.Proofs.LockOrder.Created

/-!
# What an order of locks contains

A search carries arcs from pass to pass, and each of its passes stops midway but the last.
`Arena.searchLocks_exact` says what is in the order if it leaves no deadlock: the locks of the
grouped sections, the arcs by which these enter each other, the arcs from created locks to the locks
before them in a lockset, and nothing else.

Nothing is left over from a pass that stopped, since each pass starts from the permanent order. What
is in there is tied to the locksets by `Progress.Filed`, which every repair keeps: a permanent arc
leads from a created lock to a lock that comes before it in the lockset of the label
(`labelled_repaired_iff`), and a permanent lock is held by a grouped section. A pass adds no lock to
those it starts with (`pass_nodes`).
-/

namespace Interlock

namespace Arena

variable {a : Arena} {t : SectionId} {i : Nat} {x : LockNum}

/-- The lock is at a position of the section's lockset. -/
def HasAt (a : Arena) (t : SectionId) (i : Nat) (x : LockNum) : Prop :=
  ∃ s key, a.sections[t]? = some s ∧ s.lockset[i]? = some key ∧ a.locks.find? key = some x

lemma Valid.hasAt_iff (h : a.Valid) : a.HasAt t i x ↔ (a.held t)[i]? = some x := by
  constructor
  · rintro ⟨s, key, hs, hk, hf⟩
    have same := congrArg (·[i]?) (h.map_find? hs)
    simpa [hk, hf] using same.symm
  · intro hx
    obtain ⟨s, _, hs, _⟩ := mem_held.mp (List.mem_of_getElem? hx)
    have same := congrArg (·[i]?) (h.map_find? hs)
    simp only [List.getElem?_map, hx, Option.map_some] at same
    obtain ⟨key, hk, hf⟩ := Option.map_eq_some_iff.mp same
    exact ⟨s, key, hs, hk, hf⟩

end Arena

namespace LockOrder

variable {arena : Arena} {o o' permanent : LockOrder} {x y n : LockNum} {t : SectionId}
  {rs : List Request} {l : List LockNum}

/-- An arc is listed exactly if some section justifies it. -/
lemma mem_arcs : (x, y) ∈ o.arcs ↔ ∃ t, o.Labelled x y t := by
  simp only [arcs, Labelled, List.mem_eraseDups, List.mem_map, SortedSet.mem_toList, Prod.exists,
    Prod.mk.injEq]
  constructor
  · rintro ⟨_, _, t, h, rfl, rfl⟩
    exact ⟨t, h⟩
  · rintro ⟨t, h⟩
    exact ⟨x, y, t, h, rfl, rfl⟩

lemma mem_nodes_addArc : n ∈ (o.addArc x y t).nodes ↔ n = y ∨ n = x ∨ n ∈ o.nodes := by
  simp only [addArc, SortedSet.mem_insert]

lemma mem_nodes_addNodes : n ∈ (l.foldl addNode o).nodes ↔ n ∈ l ∨ n ∈ o.nodes := by
  induction l generalizing o with
  | nil => simp
  | cons x rest ih =>
    rw [List.foldl_cons, ih, List.mem_cons, addNode, SortedSet.mem_insert]
    tauto

lemma mem_nodes_addArcs (h : n ∈ (l.foldl (fun o y => o.addArc x y t) o).nodes) :
    n = x ∨ n ∈ l ∨ n ∈ o.nodes := by
  induction l generalizing o with
  | nil => exact .inr (.inr h)
  | cons y rest ih =>
    rw [List.mem_cons]
    rcases ih h with hx | hr | ho
    · exact .inl hx
    · exact .inr (.inl (.inr hr))
    · rw [mem_nodes_addArc] at ho
      tauto

/-- Requests between locks that the order has add no lock. -/
lemma takeAll_nodes (h : rs.foldlM (take arena) o = .ok o')
    (inside : ∀ r ∈ rs, r.held ∈ o.nodes ∧ r.requested ∈ o.nodes) : n ∈ o'.nodes ↔ n ∈ o.nodes := by
  induction rs generalizing o with
  | nil =>
    cases h
    exact Iff.rfl
  | cons r rest ih =>
    obtain ⟨⟨hx, hy⟩, inside⟩ := List.forall_mem_cons.mp inside
    rw [List.foldlM_cons] at h
    obtain ⟨o1, hr, h⟩ := bind_eq_ok.mp h
    obtain ⟨_, rfl⟩ := take_ok hr
    have same : ∀ m, m ∈ (o.noting r).nodes ↔ m ∈ o.nodes := by
      intro m
      unfold noting
      split
      · rw [mem_nodes_addArc]
        constructor
        · rintro (rfl | rfl | hm)
          · exact hy
          · exact hx
          · exact hm
        · exact fun hm => .inr (.inr hm)
      · exact Iff.rfl
    rw [ih h fun q hq => ⟨(same _).mpr (inside q hq).1, (same _).mpr (inside q hq).2⟩, same]

/-- A pass without a conflict leaves the permanent locks and those of all grouped sections. -/
theorem pass_nodes (h : pass arena permanent = .ok o) :
    n ∈ o.nodes ↔ n ∈ permanent.nodes ∨ ∃ t ∈ arena.groupedSections, n ∈ arena.held t := by
  have start : ∀ m, m ∈ (passStart arena permanent).nodes ↔
      m ∈ permanent.nodes ∨ ∃ t ∈ arena.groupedSections, m ∈ arena.held t := by
    intro m
    rw [passStart, mem_nodes_addNodes, List.mem_flatMap]
    exact Or.comm
  rw [pass_eq] at h
  rw [takeAll_nodes h, start]
  intro r hr
  obtain ⟨hp, hx, hy⟩ := Arena.mem_requests.mp hr
  obtain ⟨ht, hu, _⟩ := Arena.mem_enteredPairs.mp hp
  exact ⟨(start _).mpr (.inr ⟨_, ht, hx⟩), (start _).mpr (.inr ⟨_, hu, hy⟩)⟩

end LockOrder

namespace LockSearch

variable {a : Arena} {p q : Progress} {k : Nat} {o : LockOrder} {c : LockConflict}
  {outer h t : SectionId} {hs : List SectionId} {key : LockKey} {lock x y n : LockNum}

/-- Grants add the avoidance lock and the locks that it gets arcs to. -/
lemma nodes_grantAll (hn : n ∈ (hs.foldl (grant outer key lock) p).permanent.nodes) :
    n ∈ p.permanent.nodes ∨ n = lock ∨
      ∃ t, (hs.foldl (grant outer key lock) p).permanent.Labelled lock n t := by
  induction hs generalizing p with
  | nil => exact .inl hn
  | cons h rest ih =>
    rw [List.foldl_cons] at hn ⊢
    rcases ih hn with hn | hn | hn
    · have step : n ∈ p.permanent.nodes ∨ n = lock ∨
          (grant outer key lock p h).permanent.Labelled lock n h := by
        unfold grant at hn ⊢
        split at hn
        · exact .inl hn
        · split at hn
          · exact .inl hn
          · rename_i s _ lacking
            rw [if_neg lacking]
            rcases LockOrder.mem_nodes_addArcs hn with rfl | hn | hn
            · exact .inr (.inl rfl)
            · exact .inr (.inr (LockOrder.labelled_addArcs.mpr (.inl ⟨rfl, hn, rfl⟩)))
            · exact .inl hn
      rcases step with hn | rfl | hl
      · exact .inl hn
      · exact .inr (.inl rfl)
      · exact .inr (.inr ⟨h, labelled_grantAll.mpr (.inl hl)⟩)
    · exact .inr (.inl hn)
    · exact .inr (.inr hn)

/-- The permanent arcs after a repair are those from before, and the arcs from the avoidance lock to
all locks of the sections that the conflict involves. -/
lemma Progress.Stacked.labelled_repaired_iff (hp : p.Stacked a) :
    (p.repaired o c).permanent.Labelled x y t ↔
      p.permanent.Labelled x y t ∨
        (x = p.newLock c ∧ t ∈ implicated o c ∧ y ∈ p.arena.held t) := by
  constructor
  · intro hl
    rcases labelled_grantAll.mp hl with hl | ⟨rfl, ht, hy, _⟩
    · exact .inl hl
    · -- the new key stands for no lock of the section, so it holds what it held with the old table
      obtain ⟨s, key, hs, hk, hf⟩ := Arena.mem_held.mp hy
      have other : key ≠ p.newKey c := by
        rintro rfl
        have holds : s.holds (p.newKey c) = true := List.contains_iff_mem.mpr hk
        rw [hp.lacks_newKey hs] at holds
        cases holds
      have old : p.arena.locks.find? key = some y :=
        (LockTable.find?_synthesize.trans (if_neg other)).symm.trans hf
      exact .inr ⟨rfl, ht, Arena.mem_held.mpr ⟨s, key, hs, hk, old⟩⟩
  · rintro (hl | ⟨rfl, ht, hy⟩)
    · exact labelled_grantAll.mpr (.inl hl)
    · exact hp.labelled_newLock ht hy

/-- The permanent order has nothing that is not in the locksets. -/
structure Progress.Filed (a : Arena) (p : Progress) : Prop extends p.Stacked a where
  /-- A permanent arc leads from a created lock to one that comes before it in the lockset of the
  label. -/
  stored : ∀ {x y t}, p.permanent.Labelled x y t → x ∈ p.created ∧ [y, x].Sublist (p.arena.held t)
  nodes : ∀ n ∈ p.permanent.nodes, ∃ t ∈ p.arena.groupedSections, n ∈ p.arena.held t

/-- A lockset after a repair begins with the lockset from before. -/
lemma Progress.Stacked.held_prefix (hp : p.Stacked a) :
    (p.arena.held t).Sublist ((p.repaired o c).arena.held t) := by
  cases hs : p.arena.sections[t]? with
  | none =>
    rw [Arena.held, hs]
    exact List.nil_sublist _
  | some s =>
    rw [hp.held_repaired hs]
    split
    · exact List.sublist_append_left _ _
    · exact .refl _

/-- A repair keeps the permanent order in line with the locksets. -/
lemma Progress.Filed.repaired (hp : p.Filed a)
    (hs : LockOrder.Stopped p.arena p.permanent o c) : (p.repaired o c).Filed a where
  toStacked := hp.toStacked.repaired hs
  stored := by
    intro x y t hl
    rw [created_repaired]
    rcases hp.labelled_repaired_iff.mp hl with hl | ⟨rfl, ht, hy⟩
    · obtain ⟨hx, pair⟩ := hp.stored hl
      exact ⟨List.mem_append_left _ hx, pair.trans hp.held_prefix⟩
    · obtain ⟨s, _, ht', _⟩ := Arena.mem_held.mp hy
      refine ⟨List.mem_append_right _ (List.mem_singleton.mpr rfl), ?_⟩
      rw [hp.held_repaired ht', if_pos ht]
      exact pair_sublist_concat.mpr (.inr ⟨hy, rfl⟩)
  nodes := by
    intro n hn
    have grounded := hp.grounded.repaired hs
    have newest : ∃ t ∈ (p.repaired o c).arena.groupedSections,
        p.newLock c ∈ (p.repaired o c).arena.held t :=
      ⟨c.outer, grows_repaired.mem_groupedSections.mpr hs.orders.1,
        newLock_mem_held List.mem_cons_self hs.orders.1⟩
    rcases nodes_grantAll hn with hn | rfl | ⟨t, hl⟩
    · rcases SortedSet.mem_insert.mp hn with rfl | hn
      · exact newest
      · obtain ⟨t, ht, hn⟩ := hp.nodes n hn
        exact ⟨t, grows_repaired.mem_groupedSections.mpr ht, grows_repaired.held hn⟩
    · exact newest
    · obtain ⟨ht, _, hn, _⟩ := grounded hl
      exact ⟨t, ht, hn⟩

/-- The permanent order is in line with the locksets before the first repair. -/
lemma filed_start {oracle : Oracle} (valid : a.Valid) (free : a.locks.SerialsFree)
    (allocated : a.locks.Allocated) : (start a oracle).Filed (start a oracle).arena where
  toStacked := stacked_start valid free allocated
  stored := fun hl => absurd hl LockOrder.not_labelled_empty
  nodes := fun _ hn => absurd hn SortedSet.not_mem_empty

/-- The permanent order stays in line with the locksets. -/
theorem filed_after? {oracle : Oracle} (valid : a.Valid) (free : a.locks.SerialsFree)
    (allocated : a.locks.Allocated) (h : (start a oracle).after? k = some q) :
    q.Filed (start a oracle).arena :=
  after?_induction (filed_start valid free allocated) Progress.Filed.repaired h

/-- The order of a search has what its locksets call for, and nothing else. -/
structure Exact (s : LockSearch) : Prop where
  nodes : ∀ n, n ∈ s.order.nodes ↔ ∃ t ∈ s.arena.groupedSections, n ∈ s.arena.held t
  /-- A grouped section justifies an arc from a lock that it holds to a lock of a section that it
  enters, and from a created lock to a lock at an earlier position of its lockset. -/
  labels : ∀ x y t, t ∈ s.order.labels x y ↔
    t ∈ s.arena.groupedSections ∧
      ((x ∈ s.arena.held t ∧ x ≠ y ∧
          ∃ u ∈ s.arena.groupedSections, s.arena.mayEnter t u = true ∧ y ∈ s.arena.held u) ∨
        (x ∈ s.avoidanceLocks ∧ ∃ i j, j < i ∧ s.arena.HasAt t i x ∧ s.arena.HasAt t j y))
  /-- Every arc is justified. -/
  arcs : ∀ x y, (x, y) ∈ s.order.arcs → s.order.labels x y ≠ []

end LockSearch

namespace Arena

variable {a : Arena} {oracle : Oracle} {config : Config} {s : LockSearch}

/-- A search that leaves no deadlock ends in a state whose permanent order is in line with the
locksets. Its order has the permanent arcs and those of the grouped sections. -/
theorem filed_found (free : a.locks.SerialsFree) (allocated : a.locks.Allocated)
    (h : a.searchLocks oracle config = .ok s) (clean : s.status.isDeadlockFree = true) :
    ∃ k q, (LockSearch.start a oracle).after? k = some q ∧ q.Filed (a.ensureAllTargets oracle) ∧
      s.arena = q.arena ∧ s.avoidanceLocks = q.created ∧
      (∀ n, n ∈ s.order.nodes ↔ ∃ t ∈ q.arena.groupedSections, n ∈ q.arena.held t) ∧
      ∀ x y t, s.order.Labelled x y t ↔
        (x ≠ y ∧ q.arena.Orders t x y) ∨ (x ∈ q.created ∧ [y, x].Sublist (q.arena.held t)) := by
  obtain ⟨valid, rfl⟩ := searchLocks_eq_ok.mp h
  obtain ⟨k, q, o, hk, ho, hend⟩ := LockSearch.run_deadlockFree clean
  have filed := LockSearch.filed_after? (validate_eq_ok.mp valid) free allocated hk
  rw [hend]
  refine ⟨k, q, hk, filed, rfl, rfl, ?_, ?_⟩
  · intro n
    rw [LockSearch.Progress.finish, LockOrder.pass_nodes ho, or_iff_right_of_imp (filed.nodes n)]
  · intro x y t
    rw [LockSearch.Progress.finish, LockOrder.pass_ok ho, or_comm]
    apply or_congr_right
    exact ⟨filed.stored, fun ⟨hx, pair⟩ => (filed.arcs hx pair).2⟩

/-- The order that a search leaves without a deadlock contains exactly what its locksets call for,
however many repairs there were. -/
theorem searchLocks_exact (free : a.locks.SerialsFree) (allocated : a.locks.Allocated)
    (h : a.searchLocks oracle config = .ok s) (clean : s.status.isDeadlockFree = true) :
    s.Exact := by
  have grouped := (clean_of_deadlockFree h clean).grouped
  obtain ⟨_, q, _, filed, arena, created, nodes, labelled⟩ := filed_found free allocated h clean
  rw [arena] at grouped
  constructor
  · rw [arena]
    exact nodes
  · intro x y t
    have positions : [y, x].Sublist (q.arena.held t) ↔
        ∃ i j, j < i ∧ q.arena.HasAt t i x ∧ q.arena.HasAt t j y := by
      rw [pair_sublist_iff]
      simp only [filed.valid.hasAt_iff]
    rw [LockOrder.mem_labels, arena, created, ← positions]
    constructor
    · intro hl
      refine ⟨grouped hl, ?_⟩
      rcases (labelled x y t).mp hl with ⟨hne, _, hx, entered⟩ | stored
      · exact .inl ⟨hx, hne, entered⟩
      · exact .inr stored
    · rintro ⟨ht, ⟨hx, hne, entered⟩ | stored⟩
      · exact (labelled x y t).mpr (.inl ⟨hne, ht, hx, entered⟩)
      · exact (labelled x y t).mpr (.inr stored)
  · intro x y hxy
    obtain ⟨t, hl⟩ := LockOrder.mem_arcs.mp hxy
    exact List.ne_nil_of_mem (LockOrder.mem_labels.mpr hl)

/-- Two repairs of the crossing sections leave an order of four locks. -/
theorem searchLocks_exact_crossing :
    ∃ s, crossing.searchLocks (fun site => [site]) { repair := true } = .ok s ∧
      s.status = .repaired 2 ∧ s.avoidanceLocks = [-3, -4] ∧ s.Exact := by
  have free : crossing.locks.SerialsFree := by
    intro serial owner _
    rfl
  have allocated : crossing.locks.Allocated := LockTable.allocated_of_numbers (by decide)
  obtain ⟨s, hs, status, locks⟩ :
      ∃ s, crossing.searchLocks (fun site => [site]) { repair := true } = .ok s ∧
        s.status = .repaired 2 ∧ s.avoidanceLocks = [-3, -4] :=
    ⟨_, rfl, rfl, by decide +kernel⟩
  have clean : s.status.isDeadlockFree = true := by
    rw [status]
    rfl
  exact ⟨s, hs, status, locks, searchLocks_exact free allocated hs clean⟩

end Arena

end Interlock
