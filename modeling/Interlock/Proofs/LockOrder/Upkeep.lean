import Interlock.Proofs.LockOrder.Reorder
import Interlock.Proofs.LockOrder.Run
import Interlock.Proofs.Validity

/-!
# Arenas stay valid

A search and a reordering leave a valid arena valid. A repair gives keys that it has put into the
lock table before (`Progress.valid_repaired`), and a reordering permutes keys (`Valid.withLockset`).
In a valid arena every section gets its plan (`Valid.plannedLockset`), so a reordering meets no
fault (`Valid.reorder`).
-/

namespace Interlock

/-- A grant adds one key at most. -/
lemma Section.mem_granted {s : Section} {key k : LockKey} (h : k ∈ (s.granted key).lockset) :
    k ∈ s.lockset ∨ k = key := by
  unfold granted at h
  split at h
  · exact .inl h
  · simpa [adding] using h

namespace LockSearch

variable {p q : Progress} {k : Nat} {o : LockOrder} {c : LockConflict} {outer t : SectionId}
  {key : LockKey} {lock : LockNum}

/-- A grant of a key that has a number keeps an arena valid. -/
lemma valid_grant (h : p.arena.Valid) (number : p.arena.locks.find? key = some lock) :
    (grant outer key lock p t).arena.Valid := by
  refine h.update (f := fun i s => if i = t then s.granted key else s) groups_grant
    (fun i => sections_grant) ?_ ?_ ?_
  · intro i s
    split
    · obtain ⟨more, hm⟩ := s.granted_eq_adding key
      rw [hm]
      rfl
    · rfl
  · intro i s
    split
    · obtain ⟨more, hm⟩ := s.granted_eq_adding key
      rw [hm]
      rfl
    · rfl
  · intro i s hs k hk
    rw [locks_grant]
    split at hk
    · rcases Section.mem_granted hk with hk | rfl
      · exact (h.sections hs).keys k hk
      · exact ⟨lock, number⟩
    · exact (h.sections hs).keys k hk

/-- The state of a repair after the avoidance lock is created. -/
def Progress.creating (p : Progress) (c : LockConflict) : Progress :=
  { p with
    arena := { p.arena with locks := (p.arena.locks.synthesize (p.owner c)).1 }
    permanent := p.permanent.addNode (p.newLock c)
    log := p.visiting (pairsUpTo c p.arena.enteredPairs) ++
      [.lockDeadlockOn c.held c.requested, .avoidanceCreated (p.newLock c) (p.newKey c).text] }

/-- The key of the avoidance lock has its number. -/
lemma find?_creating : (p.creating c).arena.locks.find? (p.newKey c) = some (p.newLock c) :=
  LockTable.find?_synthesize.trans (if_pos rfl)

/-- A new lock keeps an arena valid. -/
lemma Progress.valid_creating (h : p.arena.Valid) : (p.creating c).arena.Valid := by
  refine h.update (f := fun _ s => s) rfl (fun _ => (Option.map_id' ..).symm) (fun _ _ => rfl)
    (fun _ _ => rfl) fun i s hs key hk => ?_
  obtain ⟨n, hn⟩ := (h.sections hs).keys key hk
  exact ⟨n, LockTable.find?_synthesize_of_some hn⟩

/-- Grants of a key that has a number keep an arena valid. -/
lemma valid_grantAll {hs : List SectionId} (h : p.arena.Valid)
    (number : p.arena.locks.find? key = some lock) :
    (hs.foldl (grant outer key lock) p).arena.Valid := by
  induction hs generalizing p with
  | nil => exact h
  | cons t rest ih =>
    refine ih (valid_grant h number) ?_
    rw [locks_grant]
    exact number

/-- A repair keeps an arena valid. -/
lemma Progress.valid_repaired (h : p.arena.Valid) : (p.repaired o c).arena.Valid :=
  valid_grantAll (valid_creating h) find?_creating

/-- An arena stays valid with any number of repairs. -/
lemma valid_after? (hp : p.arena.Valid) (h : p.after? k = some q) : q.arena.Valid :=
  after?_induction (P := fun q => q.arena.Valid) hp (fun hp _ => Progress.valid_repaired hp) h

end LockSearch

namespace Arena

variable {a : Arena} {oracle : Oracle} {config : Config} {found : LockSearch} {o : LockOrder}
  {t : SectionId} {u : Section} {keys : List LockKey}

/-- A search leaves a valid arena. -/
theorem valid_found (h : a.searchLocks oracle config = .ok found) : found.arena.Valid := by
  obtain ⟨valid, rfl⟩ := searchLocks_eq_ok.mp h
  obtain ⟨k, q, hk, harena, _⟩ :=
    LockSearch.run_walks config config.maxIterations (LockSearch.start a oracle)
  rw [harena]
  exact LockSearch.valid_after? (validate_eq_ok.mp valid).ensureAllTargets hk

/-- A lockset in another order keeps an arena valid. -/
lemma Valid.withLockset (h : a.Valid) (hu : a.sections[t]? = some u) (perm : keys.Perm u.lockset) :
    (a.withLockset t keys).Valid := by
  refine h.update (f := fun i s => if t = i then { s with lockset := keys } else s) rfl
    (fun i => sections_withLockset) ?_ ?_ ?_
  · intro i s
    split <;> rfl
  · intro i s
    split <;> rfl
  · intro i s hs key hk
    split at hk
    · rename_i e
      subst e
      rw [hu] at hs
      cases hs
      exact (h.sections hu).keys key (perm.mem_iff.mp hk)
    · exact (h.sections hs).keys key hk

/-- In a valid arena every section sees the arcs of an order. -/
lemma Valid.visibleArcs (h : a.Valid) (hu : a.sections[t]? = some u) :
    ∃ arcs, a.visibleArcs o t = .ok arcs := by
  have hides : ∀ statics, ∀ other ∈ a.sectionIds, ∃ b, a.hidden statics other = .ok b := by
    intro statics other hother
    have hs := List.getElem?_eq_getElem (List.mem_range.mp hother)
    unfold hidden
    split
    · exact ⟨false, rfl⟩
    · refine exists_bind_ok (section?_eq_ok.mpr hs) ?_
      split
      · exact ⟨true, rfl⟩
      · exact exists_bind_ok (h.lockNums hs) ⟨_, rfl⟩
  refine exists_bind_ok (h.lockNums hu) ?_
  have shown : ∀ other ∈ a.sectionIds, ∃ b,
      (do if other = t then return true else
        return !(← a.hidden ((a.held t).filter LockNum.isStatic) other) : Except Fault Bool) =
        .ok b := by
    intro other hother
    split
    · exact ⟨true, rfl⟩
    · obtain ⟨b, hb⟩ := hides _ other hother
      exact exists_bind_ok hb ⟨_, rfl⟩
  choose! shows hshows using shown
  exact exists_bind_ok (filterM_eq_ok.mpr ⟨shows, hshows, rfl⟩) ⟨_, rfl⟩

/-- In a valid arena every section has a plan, or is in no group. -/
lemma Valid.plannedLockset (h : a.Valid) (hu : a.sections[t]? = some u) :
    ∃ planned, a.plannedLockset o t = .ok planned := by
  refine exists_bind_ok (section?_eq_ok.mpr hu) ?_
  split
  · exact ⟨none, rfl⟩
  · obtain ⟨arcs, harcs⟩ := h.visibleArcs hu
    exact exists_bind_ok harcs (exists_bind_ok (h.lockNums hu) ⟨_, rfl⟩)

/-- A reordering of some sections of a valid arena meets no fault. -/
lemma Valid.reorderEach {ids : List SectionId} {r : Reordering} (h : r.arena.Valid)
    (clear : r.fault = none) (inside : ∀ t ∈ ids, t < r.arena.sections.length) :
    (reorderEach o ids r).fault = none ∧ (reorderEach o ids r).arena.Valid ∧
      (reorderEach o ids r).arena.locks = r.arena.locks := by
  induction ids generalizing r with
  | nil => exact ⟨clear, h, rfl⟩
  | cons t rest ih =>
    obtain ⟨ht, inside⟩ := List.forall_mem_cons.mp inside
    obtain ⟨planned, hplanned⟩ := h.plannedLockset (o := o) (List.getElem?_eq_getElem ht)
    rw [Arena.reorderEach, hplanned]
    cases planned with
    | none => exact ih h clear inside
    | some planned =>
      obtain ⟨visible, keys⟩ := planned
      obtain ⟨u, hu, perm⟩ := plannedLockset_perm hplanned
      dsimp only
      split
      · exact ih h clear inside
      · refine ih (h.withLockset hu perm) clear ?_
        intro i hi
        have same : (r.arena.withLockset t keys).sections.length = r.arena.sections.length :=
          List.length_modify _ _ _
        exact same.symm ▸ inside i hi

/-- A reordering of a valid arena meets no fault, and leaves a valid arena with the same locks. -/
theorem Valid.reorder (h : a.Valid) :
    (a.reorder o).fault = none ∧ (a.reorder o).arena.Valid ∧ (a.reorder o).arena.locks = a.locks :=
  Valid.reorderEach h rfl fun _ ht => List.mem_range.mp ht

end Arena

end Interlock
