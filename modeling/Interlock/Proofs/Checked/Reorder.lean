import Interlock.Proofs.Checked.Queue

/-!
# A checked reordering

A reordering with all its look-ups, one section after the other: of what the section sees, of its
locks, and of the key at each position of its plan. In a valid arena it does what a reordering does
(`reorder_ok`).
-/

namespace Interlock.Checked

/-- Puts the lockset of a section in order, if it is in a group, and counts it if that changes
it. -/
def reorderOne (scc : Clustering) (o : LockOrder) (changed : Nat) (t : SectionId) : Edit Nat := do
  if (← ask (·.section? t)).isGrouped then
    let visible ← ask (·.visibleArcs o t)
    -- the name of the section is logged
    let _ ← ask (·.section? t)
    let locks ← ask (·.lockNums t)
    let s ← ask (·.section? t)
    let positions ← read fun _ => plan scc { locks, visible }
    let lockset ← read fun _ => positions.mapM (item s.lockset)
    if lockset = s.lockset then return changed
    let _ ← apply fun a => do return (← a.replaceLockset t lockset, ())
    return changed + 1
  else return changed

/-- Puts the lockset of every grouped section in order. -/
def reorder (scc : Clustering) (o : LockOrder) : Edit Nat := do
  let ids ← read fun a => .ok a.sectionIds
  ids.foldlM (reorderOne scc o) 0

variable {scc : Clustering} {a : Arena} {o : LockOrder} {t : SectionId} {s : Section}

lemma mapM_item {α : Type} {l : List α} {positions : List Nat}
    (inside : ∀ i ∈ positions, i < l.length) :
    positions.mapM (item l) = .ok (positions.filterMap (l[·]?)) := by
  induction positions with
  | nil => rfl
  | cons i rest ih =>
    obtain ⟨hi, inside⟩ := List.forall_mem_cons.mp inside
    have hx := List.getElem?_eq_getElem hi
    rw [List.mapM_cons, bind_ok (item_ok hx), bind_ok (ih inside), List.filterMap_cons, hx]
    rfl

lemma mapM_positions {p : LockPlan} {keys : List LockKey} (size : keys.length = p.locks.length) :
    p.positions.mapM (item keys) = .ok (p.positions.filterMap (keys[·]?)) := by
  refine mapM_item fun i hi => ?_
  rw [size]
  exact List.mem_range.mp (LockPlan.positions_perm.mem_iff.mp hi)

/-- A checked reordering of one section gives it its planned lockset. -/
lemma reorderOne_ok (exact : scc.Exact) (valid : a.Valid) (hs : a.sections[t]? = some s)
    (changed : Nat) :
    (a.plannedLockset o t = .ok none ∧ reorderOne scc o changed t a = .ok changed a) ∨
      ∃ visible keys, a.plannedLockset o t = .ok (some (visible, keys)) ∧
        reorderOne scc o changed t a = if keys = s.lockset then .ok changed a
          else .ok (changed + 1) (a.modifySection t ({ · with lockset := keys })) := by
  have there := Arena.section?_eq_ok.mpr hs
  have numbers := valid.lockNums hs
  unfold Arena.plannedLockset reorderOne
  rw [bind_ok there, bind_edit (ask_ok there)]
  cases grouped : s.isGrouped with
  | false => exact .inl ⟨rfl, rfl⟩
  | true =>
    right
    obtain ⟨visible, hv⟩ := valid.visibleArcs (o := o) hs
    obtain ⟨s', hs', hn⟩ := Arena.lockNums_eq_ok.mp numbers
    rw [hs] at hs'
    cases hs'
    have size : s.lockset.length = (a.held t).length := by
      simpa using congrArg List.length hn
    have found := mapM_positions (p := { locks := a.held t, visible }) size
    generalize hk : LockPlan.positions _ = positions at found
    refine ⟨visible, positions.filterMap (s.lockset[·]?), ?_, ?_⟩
    · rw [← hk]
      exact (bind_ok hv).trans (bind_ok numbers)
    · have planned := plan_ok exact { locks := a.held t, visible }
      rw [hk] at planned
      have replaced : (do return (← a.replaceLockset t (positions.filterMap (s.lockset[·]?)), ()) :
          Except Fault (Arena × Unit)) = .ok (a.modifySection t
            ({ · with lockset := positions.filterMap (s.lockset[·]?) }), ()) := by
        rw [Arena.replaceLockset, bind_ok there]
        rfl
      rw [if_pos rfl, bind_edit (ask_ok hv), bind_edit (ask_ok there), bind_edit (ask_ok numbers),
        bind_edit (ask_ok there), bind_edit (read_ok planned), bind_edit (read_ok found)]
      split
      · rfl
      · exact bind_edit (apply_ok replaced)

lemma reorderEach_ok (exact : scc.Exact) {ids : List SectionId} {changed : Nat} {log : List Event}
    {fault : Option Fault} (valid : a.Valid)
    (inside : ∀ t ∈ ids, t < a.sections.length) :
    ids.foldlM (reorderOne scc o) changed a =
      .ok (Arena.reorderEach o ids { arena := a, changed, log, fault }).changed
        (Arena.reorderEach o ids { arena := a, changed, log, fault }).arena := by
  induction ids generalizing a changed log with
  | nil => rfl
  | cons t rest ih =>
    obtain ⟨ht, inside⟩ := List.forall_mem_cons.mp inside
    have hs := List.getElem?_eq_getElem ht
    rw [List.foldlM_cons, Arena.reorderEach]
    rcases reorderOne_ok exact valid hs changed with ⟨planned, one⟩ | ⟨visible, keys, planned, one⟩
    · rw [bind_edit one, planned]
      exact ih valid inside
    · obtain ⟨u, hu, perm⟩ := Arena.plannedLockset_perm planned
      have old : ((a.sections[t]?).map (·.lockset)).getD [] = a.sections[t].lockset := by
        rw [hs]
        rfl
      rw [planned]
      dsimp only
      rw [old]
      by_cases same : keys = a.sections[t].lockset
      · rw [if_pos same] at one ⊢
        rw [bind_edit one]
        exact ih valid inside
      · rw [if_neg same] at one ⊢
        rw [bind_edit one]
        have size : (a.withLockset t keys).sections.length = a.sections.length :=
          List.length_modify _ _ _
        exact ih (valid.withLockset hu perm) fun i hi => size.symm ▸ inside i hi

/-- In a valid arena a checked reordering does what a reordering does. -/
theorem reorder_ok (exact : scc.Exact) (valid : a.Valid) :
    reorder scc o a = .ok (a.reorder o).changed (a.reorder o).arena := by
  unfold reorder
  rw [bind_edit (read_ok (v := a.sectionIds) rfl)]
  exact reorderEach_ok exact valid fun _ ht => List.mem_range.mp ht

end Interlock.Checked
