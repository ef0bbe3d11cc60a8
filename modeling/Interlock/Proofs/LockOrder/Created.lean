import Interlock.Proofs.LockOrder.Convergence
import Interlock.Proofs.LockOrder.Upkeep

/-!
# Created locks

What the repairs of a search leave in the locksets, if the lock table has given out all its numbers
and the serial numbers to come are free. Then each avoidance lock is new: no section holds it before
it is created (`Stacked.newLock_not_mem_held`), so a section holds it afterwards exactly if the
conflict involves the section, and then as its last lock (`held_repaired`).

`Progress.Stacked` is what every repair keeps. A lockset is that of the start with the created locks
that the section holds at its end, in order of creation, and the section justifies a permanent arc
from each of these to every lock before it.
-/

namespace Interlock

namespace Arena

variable {a b : Arena} {t : SectionId} {s : Section}

/-- Keys that have numbers keep them. -/
lemma Grows.map_find? {keys : List LockKey} {numbers : List LockNum} (h : Grows a b)
    (hk : keys.map a.locks.find? = numbers.map some) :
    keys.map b.locks.find? = numbers.map some := by
  rw [← hk]
  apply List.map_congr_left
  intro key hkey
  have hmem : a.locks.find? key ∈ numbers.map some := hk ▸ List.mem_map_of_mem hkey
  obtain ⟨n, _, hn⟩ := List.mem_map.mp hmem
  rw [← hn]
  exact h.numbers hn.symm

/-- In a valid arena the locks of a section are the numbers of its keys, one by one. -/
lemma Valid.map_find? (h : a.Valid) (hs : a.sections[t]? = some s) :
    s.lockset.map a.locks.find? = (a.held t).map some := by
  obtain ⟨s', hs', hk⟩ := lockNums_eq_ok.mp (h.lockNums hs)
  rw [hs] at hs'
  cases hs'
  exact hk

end Arena

namespace LockSearch

variable {a : Arena} {p q : Progress} {k : Nat} {o : LockOrder} {c : LockConflict} {t : SectionId}
  {s : Section} {x y : LockNum}

/-- The avoidance locks created so far, in order of creation. -/
def Progress.created (p : Progress) : List LockNum := p.repairs.filterMap (·.avoidanceLock)

@[simp] lemma created_repaired : (p.repaired o c).created = p.created ++ [p.newLock c] := by
  rw [Progress.created, repairs_repaired, List.filterMap_append]
  rfl

/-- The created locks that a section holds, in order of creation. -/
def Progress.createdIn (p : Progress) (t : SectionId) : List LockNum :=
  p.created.filter (· ∈ p.arena.held t)

/-- The locksets are those of an arena, with created locks at their ends. -/
structure Progress.Stacked (a : Arena) (p : Progress) : Prop extends p.Sound where
  valid : p.arena.Valid
  allocated : p.arena.locks.Allocated
  grows : a.Grows p.arena
  nodup : p.created.Nodup
  /-- A created lock is in the table. -/
  known : ∀ x ∈ p.created, ∃ key, p.arena.locks.find? key = some x
  /-- A created lock was not in the table of the arena. -/
  fresh : ∀ x ∈ p.created, ∀ key, a.locks.find? key ≠ some x
  /-- Only grouped sections hold a created lock. -/
  holders : ∀ x ∈ p.created, ∀ t, x ∈ p.arena.held t → t ∈ p.arena.groupedSections
  /-- The further keys of a lockset are those of the created locks in it. -/
  further : ∀ {t : SectionId} {s}, a.sections[t]? = some s → ∃ news,
    p.arena.sections[t]? = some (s.adding news) ∧
      news.map p.arena.locks.find? = (p.createdIn t).map some
  /-- A section orders a created lock that it holds before every lock that it held before. -/
  arcs : ∀ {x y t}, x ∈ p.created → [y, x].Sublist (p.arena.held t) →
    x ≠ y ∧ p.permanent.Labelled x y t

namespace Progress.Stacked

/-- The next avoidance lock is new. -/
lemma find?_ne_newLock (h : p.Stacked a) (key : LockKey) :
    p.arena.locks.find? key ≠ some (p.newLock c) :=
  h.allocated.find?_ne_nextLock h.serials

/-- No section holds the next avoidance lock. -/
lemma newLock_not_mem_held (h : p.Stacked a) : p.newLock c ∉ p.arena.held t := by
  intro hmem
  obtain ⟨_, key, _, _, hf⟩ := Arena.mem_held.mp hmem
  exact h.find?_ne_newLock key hf

/-- The next avoidance lock has not been created yet. -/
lemma newLock_not_mem_created (h : p.Stacked a) : p.newLock c ∉ p.created := by
  intro hmem
  obtain ⟨key, hf⟩ := h.known _ hmem
  exact h.find?_ne_newLock key hf

/-- No section names the key of the next avoidance lock. -/
lemma lacks_newKey (h : p.Stacked a) (hs : p.arena.sections[t]? = some s) :
    s.holds (p.newKey c) = false := by
  rw [Bool.eq_false_iff]
  intro holds
  have hmem : p.newKey c ∈ s.lockset := List.contains_iff_mem.mp holds
  obtain ⟨n, hn⟩ := (h.valid.sections hs).keys _ hmem
  have unknown : p.arena.locks.find? (p.newKey c) = none := h.serials.find?_nextKey
  rw [unknown] at hn
  cases hn

/-- The sections that the conflict involves get the key of the avoidance lock. -/
lemma sections_granted (h : p.Stacked a) (hs : p.arena.sections[t]? = some s) :
    (p.repaired o c).arena.sections[t]? =
      some (if t ∈ implicated o c then s.adding [p.newKey c] else s) := by
  rw [sections_repaired, hs, Option.map_some, Section.granted, h.lacks_newKey hs]
  rfl

/-- The key of the avoidance lock stands for it afterwards. -/
lemma find?_newKey : (p.repaired o c).arena.locks.find? (p.newKey c) = some (p.newLock c) := by
  rw [locks_repaired, LockTable.find?_synthesize]
  exact if_pos rfl

/-- The sections that the conflict involves hold the avoidance lock as their last one, and the
others hold what they held. -/
lemma held_repaired (h : p.Stacked a) (hs : p.arena.sections[t]? = some s) :
    (p.repaired o c).arena.held t =
      if t ∈ implicated o c then p.arena.held t ++ [p.newLock c] else p.arena.held t := by
  have old := (grows_repaired (o := o) (c := c)).map_find? (h.valid.map_find? hs)
  apply Arena.held_of_lockNums
  rw [Arena.lockNums_eq_ok]
  refine ⟨_, h.sections_granted hs, ?_⟩
  split
  · rw [Section.adding, List.map_append, old, List.map_append]
    simp [find?_newKey]
  · exact old

/-- The created locks that a section holds after a repair. -/
lemma createdIn_repaired (h : p.Stacked a) (hs : p.arena.sections[t]? = some s) :
    (p.repaired o c).createdIn t =
      if t ∈ implicated o c then p.createdIn t ++ [p.newLock c] else p.createdIn t := by
  rw [createdIn, created_repaired, h.held_repaired hs, List.filter_append, createdIn]
  split
  · congr 1
    · apply List.filter_congr
      intro x hx
      have hne : x ≠ p.newLock c := by
        rintro rfl
        exact h.newLock_not_mem_created hx
      simp [hne]
    · simp
  · simp [h.newLock_not_mem_held]

/-- A section holds no lock after a repair but those that it held, and the avoidance lock if the
conflict involves it. -/
lemma mem_held_repaired (h : p.Stacked a) :
    x ∈ (p.repaired o c).arena.held t → x ∈ p.arena.held t ∨
    (x = p.newLock c ∧ t ∈ implicated o c) := by
  intro hx
  cases hs : p.arena.sections[t]? with
  | none =>
    obtain ⟨s, _, hs', _⟩ := Arena.mem_held.mp hx
    rw [sections_repaired, hs] at hs'
    cases hs'
  | some s =>
    rw [h.held_repaired hs] at hx
    split at hx
    · rename_i ht
      rw [List.mem_append, List.mem_singleton] at hx
      exact hx.imp_right fun e => ⟨e, ht⟩
    · exact .inl hx

/-- A section that the conflict involves orders the avoidance lock before the locks that it held. -/
lemma labelled_newLock (h : p.Stacked a) (ht : t ∈ implicated o c) (hy : y ∈ p.arena.held t) :
    (p.repaired o c).permanent.Labelled (p.newLock c) y t := by
  obtain ⟨s, key, hs, hk, hf⟩ := Arena.mem_held.mp hy
  refine labelled_grantAll.mpr (.inr ⟨rfl, ht, ?_, s, hs, h.lacks_newKey hs⟩)
  exact Arena.mem_held.mpr ⟨s, key, hs, hk, LockTable.find?_synthesize_of_some hf⟩

/-- A section orders a created lock that it holds after a repair before every lock that it held
before. -/
lemma arcs_repaired (h : p.Stacked a) (hx : x ∈ (p.repaired o c).created)
    (hyx : [y, x].Sublist ((p.repaired o c).arena.held t)) :
    x ≠ y ∧ (p.repaired o c).permanent.Labelled x y t := by
  obtain ⟨s, _, hs', _⟩ := Arena.mem_held.mp (hyx.subset List.mem_cons_self)
  rw [sections_repaired] at hs'
  obtain ⟨s, hs, _⟩ := Option.map_eq_some_iff.mp hs'
  -- where both were held before, the lock is not the new one
  have old : [y, x].Sublist (p.arena.held t) → x ≠ y ∧
      (p.repaired o c).permanent.Labelled x y t := by
    intro hyx
    rw [created_repaired, List.mem_append, List.mem_singleton] at hx
    rcases hx with hx | rfl
    · obtain ⟨hne, hl⟩ := h.arcs hx hyx
      exact ⟨hne, labelled_grantAll.mpr (.inl hl)⟩
    · exact absurd (hyx.subset (List.mem_cons_of_mem y List.mem_cons_self)) h.newLock_not_mem_held
  rw [h.held_repaired hs] at hyx
  split at hyx
  · rename_i ht
    rcases pair_sublist_concat.mp hyx with hyx | ⟨hy, rfl⟩
    · exact old hyx
    · refine ⟨?_, h.labelled_newLock ht hy⟩
      rintro rfl
      exact h.newLock_not_mem_held hy
  · exact old hyx

/-- A repair keeps the locksets stacked. -/
lemma repaired (h : p.Stacked a) (hs : LockOrder.Stopped p.arena p.permanent o c) :
    (p.repaired o c).Stacked a where
  toSound := h.toSound.repaired hs
  valid := valid_repaired h.valid
  allocated := by
    rw [locks_repaired]
    exact h.allocated.synthesize
  grows := h.grows.trans grows_repaired
  nodup := by
    rw [created_repaired, List.nodup_append_comm]
    exact List.nodup_cons.mpr ⟨h.newLock_not_mem_created, h.nodup⟩
  known := by
    intro x hx
    rw [created_repaired, List.mem_append, List.mem_singleton] at hx
    rcases hx with hx | rfl
    · obtain ⟨key, hk⟩ := h.known x hx
      exact ⟨key, grows_repaired.numbers hk⟩
    · exact ⟨_, find?_newKey⟩
  fresh := by
    intro x hx key hk
    rw [created_repaired, List.mem_append, List.mem_singleton] at hx
    rcases hx with hx | rfl
    · exact h.fresh x hx key hk
    · exact h.find?_ne_newLock key (h.grows.numbers hk)
  holders := by
    intro x hx t ht
    rw [grows_repaired.mem_groupedSections]
    rcases h.mem_held_repaired ht with ht | ⟨_, ht⟩
    · rw [created_repaired, List.mem_append, List.mem_singleton] at hx
      rcases hx with hx | rfl
      · exact h.holders x hx t ht
      · exact absurd ht h.newLock_not_mem_held
    · exact h.grounded.implicated_grouped hs ht
  further := by
    intro t s hs'
    obtain ⟨news, hn, hk⟩ := h.further hs'
    have kept := (grows_repaired (o := o) (c := c)).map_find? hk
    rw [h.sections_granted hn, h.createdIn_repaired hn]
    split
    · refine ⟨news ++ [p.newKey c], by rw [Section.adding_adding], ?_⟩
      rw [List.map_append, kept, List.map_append]
      simp [find?_newKey]
    · exact ⟨news, rfl, kept⟩
  arcs := h.arcs_repaired

end Progress.Stacked

/-- The locksets are stacked before the first repair. -/
lemma stacked_start {oracle : Oracle} (valid : a.Valid) (free : a.locks.SerialsFree)
    (allocated : a.locks.Allocated) : (start a oracle).Stacked (start a oracle).arena where
  toSound := sound_start free
  valid := valid.ensureAllTargets
  allocated := allocated
  grows := .refl _
  nodup := List.nodup_nil
  known := nofun
  fresh := nofun
  holders := nofun
  further := fun {_ s} hs => ⟨[], by rw [hs, s.adding_nil], rfl⟩
  arcs := nofun

/-- The locksets stay stacked. -/
theorem stacked_after? {oracle : Oracle} (valid : a.Valid) (free : a.locks.SerialsFree)
    (allocated : a.locks.Allocated) (h : (start a oracle).after? k = some q) :
    q.Stacked (start a oracle).arena :=
  after?_induction (stacked_start valid free allocated) Progress.Stacked.repaired h

end LockSearch

/-- A search that leaves no deadlock ends in a state with stacked locksets. -/
theorem Arena.stacked_found {a : Arena} {oracle : Oracle} {config : Config} {found : LockSearch}
    (h : a.searchLocks oracle config = .ok found) (clean : found.status.isDeadlockFree = true)
    (free : a.locks.SerialsFree) (allocated : a.locks.Allocated) :
    ∃ q : LockSearch.Progress, q.Stacked (a.ensureAllTargets oracle) ∧ found.arena = q.arena ∧
      found.avoidanceLocks = q.created ∧
      ∀ {x y t}, q.permanent.Labelled x y t → found.order.Labelled x y t := by
  obtain ⟨valid, rfl⟩ := searchLocks_eq_ok.mp h
  obtain ⟨k, q, o, hk, ho, hend⟩ := LockSearch.run_deadlockFree clean
  rw [hend]
  exact ⟨q, LockSearch.stacked_after? (validate_eq_ok.mp valid) free allocated hk, rfl, rfl,
    fun hl => (LockOrder.pass_ok ho).mpr (.inl hl)⟩

end Interlock
