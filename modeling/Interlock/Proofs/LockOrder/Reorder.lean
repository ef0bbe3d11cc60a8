import Interlock.Proofs.LockOrder.Visible

/-!
# Locksets that are put in order

What a reordering does to an arena, if it meets no fault. A plan is made from the locks that the
section holds and from the arcs that it sees, and the lockset that it gives has the same keys
(`plannedLockset_eq_ok`). A reordering therefore changes nothing that a later plan reads but the
order of other sections' locks (`Arena.Shuffled`), and every plan is that of the arena as it was
before (`Shuffled.planOf`). So each section ends as its own plan leaves it (`reorder_section`).

Where the labels of the order are grouped, a section sees the arcs that it justifies and those of
the sections that it does not exclude (`Arena.View`). Each grouped section then ends with the keys
of a plan that knows these arcs (`reorder_shuffled`), and with their locks (`reorder_planned`).
-/

namespace Interlock

/-- The arcs of an order are justified by grouped sections. -/
def LockOrder.LabelsGrouped (a : Arena) (o : LockOrder) : Prop :=
  ∀ ⦃x y s⦄, o.Labelled x y s → s ∈ a.groupedSections

namespace LockPlan

variable {p : LockPlan} {keys : List LockKey}

/-- A plan takes every position of the lockset once. -/
lemma positions_perm : p.positions.Perm (List.range p.locks.length) := by
  rw [positions_eq_map, List.range_eq_range', ← List.zipIdx_map_snd 0 p.locks]
  exact entries_perm.map (·.2)

/-- The members at some positions in a row are a part of the list. -/
lemma filterMap_range' {i k : Nat} :
    (List.range' i k).filterMap (keys[·]?) = (keys.drop i).take k := by
  induction k generalizing i with
  | zero => simp
  | succ k ih =>
    rw [List.range'_succ, List.filterMap_cons, ih]
    cases h : keys[i]? with
    | none =>
      have short : keys.length ≤ i := List.getElem?_eq_none_iff.mp h
      simp [List.drop_eq_nil_of_le short, List.drop_eq_nil_of_le (Nat.le_succ_of_le short)]
    | some key =>
      obtain ⟨hi, rfl⟩ := List.getElem?_eq_some_iff.mp h
      rw [List.drop_eq_getElem_cons hi, List.take_succ_cons]

/-- A planned lockset has the keys of the lockset. -/
lemma keys_perm (h : keys.length = p.locks.length) :
    (p.positions.filterMap (keys[·]?)).Perm keys := by
  have all : (List.range keys.length).filterMap (keys[·]?) = keys := by
    rw [List.range_eq_range', filterMap_range', List.drop_zero, List.take_length]
  have perm := (positions_perm (p := p)).filterMap (keys[·]?)
  rwa [← h, all] at perm

/-- The keys of a planned lockset stand for the locks in the order of the plan. -/
lemma map_find?_keys {find? : LockKey → Option LockNum}
    (h : keys.map find? = p.locks.map some) :
    (p.positions.filterMap (keys[·]?)).map find? = p.acquired.map some := by
  have found : ∀ entry ∈ p.entries, ∃ key,
      keys[entry.2]? = some key ∧ find? key = some entry.1 := by
    rintro ⟨n, i⟩ hmem
    have hi := List.mk_mem_zipIdx_iff_getElem?.mp (entries_perm.mem_iff.mp hmem)
    have h := congrArg (·[i]?) h
    simp only [List.getElem?_map, hi, Option.map_some] at h
    obtain ⟨key, hk, hf⟩ := Option.map_eq_some_iff.mp h
    exact ⟨key, hk, hf⟩
  rw [positions_eq_map, acquired]
  generalize p.entries = entries at found
  induction entries with
  | nil => rfl
  | cons entry rest ih =>
    obtain ⟨key, hk, hf⟩ := found entry List.mem_cons_self
    have hrest := ih fun e he => found e (List.mem_cons_of_mem entry he)
    simp only [List.map_cons, List.filterMap_cons, hk, hf, hrest]

end LockPlan

namespace Arena

variable {a b : Arena} {o : LockOrder} {s t : SectionId} {u : Section} {x y n : LockNum}

/-- A section sees the arcs that it justifies and those of sections that it does not exclude. -/
def Sees (a : Arena) (o : LockOrder) (t : SectionId) (x y : LockNum) : Prop :=
  ∃ s, o.Labelled x y s ∧ (s = t ∨ ¬ a.Excludes t s)

/-- What a section sees of an order between two locks that it holds. -/
def View (a : Arena) (o : LockOrder) (t : SectionId) (x y : LockNum) : Prop :=
  x ≠ y ∧ x ∈ a.held t ∧ y ∈ a.held t ∧ a.Sees o t x y

/-- Where the labels are grouped, a section sees all that it does not exclude. -/
lemma visible_iff_sees (labels : o.LabelsGrouped a) : a.Visible o t x y ↔ a.Sees o t x y := by
  constructor
  · rintro ⟨s, _, observes, hl⟩
    refine ⟨s, hl, ?_⟩
    rcases observes with same | dynamic | ⟨_, apart⟩
    · exact .inl same
    · refine .inr fun excludes => ?_
      obtain ⟨n, hn, ht, _⟩ := excludes_iff.mp excludes
      rw [dynamic n ht] at hn
      cases hn
    · exact .inr apart
  · rintro ⟨s, hl, seen⟩
    have hg := labels hl
    obtain ⟨u, hu, _⟩ := mem_groupedSections.mp hg
    obtain ⟨hlt, _⟩ := List.getElem?_eq_some_iff.mp hu
    exact ⟨s, hlt, seen.imp_right fun apart => .inr ⟨hg, apart⟩, hl⟩

lemma ownArc_iff_view (labels : o.LabelsGrouped a) : a.OwnArc o t x y ↔ a.View o t x y := by
  rw [OwnArc, View, visible_iff_sees labels]

/-- The locks are in the order of a plan that knows what the section holds and sees. -/
def Planned (a : Arena) (o : LockOrder) (t : SectionId) (locks : List LockNum) : Prop :=
  ∃ p : LockPlan, p.locks = a.held t ∧ (∀ x y, p.View x y ↔ a.View o t x y) ∧ p.acquired = locks

/-- The keys are those of the section, in the order of a plan that knows what it holds and sees. -/
def PlannedKeys (a : Arena) (o : LockOrder) (t : SectionId) (keys : List LockKey) : Prop :=
  ∃ (u : Section) (p : LockPlan), a.sections[t]? = some u ∧
    u.lockset.map a.locks.find? = p.locks.map some ∧ (∀ x y, p.View x y ↔ a.View o t x y) ∧
    keys = p.positions.filterMap (u.lockset[·]?)

/-- The lockset of a section in the order of its plan. -/
def plannedKeys (a : Arena) (o : LockOrder) (t : SectionId) (u : Section) : List LockKey :=
  (a.planOf o t).positions.filterMap (u.lockset[·]?)

/-- A section as its plan leaves it. -/
def inOrder (a : Arena) (o : LockOrder) (t : SectionId) (u : Section) : Section :=
  if u.isGrouped then { u with lockset := a.plannedKeys o t u } else u

lemma inOrder_of_ungrouped (hg : u.isGrouped = false) : a.inOrder o t u = u := by
  rw [inOrder, hg, if_neg Bool.false_ne_true]

lemma inOrder_of_grouped (hg : u.isGrouped = true) :
    a.inOrder o t u = { u with lockset := a.plannedKeys o t u } := by
  rw [inOrder, if_pos hg]

@[simp] lemma with_lockset_inOrder :
    { u with lockset := (a.inOrder o t u).lockset } = a.inOrder o t u := by
  unfold inOrder
  split
  · rfl
  · rfl

/-- A grouped section has a number for every key. -/
def KeysKnown (a : Arena) (t : SectionId) (u : Section) : Prop :=
  u.isGrouped = true → u.lockset.map a.locks.find? = (a.held t).map some

lemma KeysKnown.length_eq (h : a.KeysKnown t u) (hg : u.isGrouped = true) :
    u.lockset.length = (a.held t).length := by
  simpa using congrArg List.length (h hg)

lemma KeysKnown.perm (h : a.KeysKnown t u) : (a.inOrder o t u).lockset.Perm u.lockset := by
  cases hg : u.isGrouped with
  | false => rw [inOrder_of_ungrouped hg]
  | true =>
    rw [inOrder_of_grouped hg]
    exact LockPlan.keys_perm (p := a.planOf o t) (h.length_eq hg)

/-- A grouped section gets a lockset by its plan, if all is found that this needs. -/
lemma plannedLockset_eq_ok {planned : Option (List (LockNum × LockNum) × List LockKey)}
    (h : a.plannedLockset o t = .ok planned) : ∃ u, a.sections[t]? = some u ∧ a.KeysKnown t u ∧
      planned = if u.isGrouped then some (a.visibleTo o t, a.plannedKeys o t u) else none := by
  obtain ⟨u, hu, h⟩ := bind_eq_ok.mp h
  rw [section?_eq_ok] at hu
  refine ⟨u, hu, ?_⟩
  cases hg : u.isGrouped with
  | false =>
    rw [hg] at h
    cases h
    exact ⟨fun grouped => absurd (hg.symm.trans grouped) Bool.false_ne_true, rfl⟩
  | true =>
    rw [hg] at h
    obtain ⟨arcs, ha, h⟩ := bind_eq_ok.mp h
    obtain ⟨locks, hl, h⟩ := bind_eq_ok.mp h
    cases h
    obtain ⟨u', hu', hn⟩ := lockNums_eq_ok.mp hl
    rw [hu] at hu'
    cases hu'
    rw [visibleArcs_eq_ok ha, ← held_of_lockNums hl]
    rw [← held_of_lockNums hl] at hn
    exact ⟨fun _ => hn, rfl⟩

/-- A planned lockset has the keys of the lockset. -/
lemma plannedLockset_perm {visible : List (LockNum × LockNum)} {keys : List LockKey}
    (h : a.plannedLockset o t = .ok (some (visible, keys))) :
    ∃ u, a.sections[t]? = some u ∧ keys.Perm u.lockset := by
  obtain ⟨u, hu, known, planned⟩ := plannedLockset_eq_ok h
  refine ⟨u, hu, ?_⟩
  have perm := known.perm (o := o)
  unfold inOrder at perm
  split at planned
  · rename_i grouped
    cases planned
    rwa [if_pos grouped] at perm
  · cases planned

/-- The second arena is the first with locksets in another order. -/
structure Shuffled (a b : Arena) : Prop where
  locks : b.locks = a.locks
  sections : ∀ i : SectionId, ∃ keys : List LockKey,
    b.sections[i]? = (a.sections[i]?).map ({ · with lockset := keys }) ∧
      ∀ s, a.sections[i]? = some s → keys.Perm s.lockset

lemma Shuffled.refl (a : Arena) : Shuffled a a := by
  refine ⟨rfl, fun i => ?_⟩
  cases h : a.sections[i]? with
  | none => exact ⟨[], rfl, nofun⟩
  | some s =>
    refine ⟨s.lockset, rfl, ?_⟩
    intro s' e
    cases e
    exact .refl _

lemma Shuffled.mem_groupedSections (h : Shuffled a b) :
    t ∈ b.groupedSections ↔ t ∈ a.groupedSections := by
  obtain ⟨keys, hk, _⟩ := h.sections t
  rw [Arena.mem_groupedSections, Arena.mem_groupedSections, hk]
  cases a.sections[t]? with
  | none => simp
  | some s => simp [Section.isGrouped]

lemma Shuffled.mem_held (h : Shuffled a b) : n ∈ b.held t ↔ n ∈ a.held t := by
  obtain ⟨keys, hk, perm⟩ := h.sections t
  rw [Arena.mem_held, Arena.mem_held, hk, h.locks]
  cases hs : a.sections[t]? with
  | none => simp
  | some s => simp [(perm s hs).mem_iff]

lemma Shuffled.excludes (h : Shuffled a b) : b.Excludes s t ↔ a.Excludes s t := by
  simp only [excludes_iff, h.mem_held]

lemma Shuffled.length_sections (h : Shuffled a b) : b.sections.length = a.sections.length := by
  have past : ∀ i, b.sections.length ≤ i ↔ a.sections.length ≤ i := by
    intro i
    obtain ⟨keys, hk, _⟩ := h.sections i
    rw [← List.getElem?_eq_none_iff, ← List.getElem?_eq_none_iff, hk, Option.map_eq_none_iff]
  exact Nat.le_antisymm ((past _).mpr (Nat.le_refl _)) ((past _).mp (Nat.le_refl _))

lemma Shuffled.observes (h : Shuffled a b) : b.Observes t s ↔ a.Observes t s := by
  simp only [Observes, h.mem_held, h.mem_groupedSections, h.excludes]

lemma Shuffled.held_eq (h : Shuffled a b) (same : b.sections[t]? = a.sections[t]?) :
    b.held t = a.held t := by
  rw [held, held, same, h.locks]

/-- Other locksets in another order do not matter to the plan for a section. -/
lemma Shuffled.planOf (h : Shuffled a b) (same : b.sections[t]? = a.sections[t]?) :
    b.planOf o t = a.planOf o t := by
  simp only [Arena.planOf, h.held_eq same, visibleTo, sectionIds, h.length_sections, h.observes]

lemma Shuffled.inOrder (h : Shuffled a b) (same : b.sections[t]? = a.sections[t]?) :
    b.inOrder o t u = a.inOrder o t u := by
  rw [Arena.inOrder, Arena.inOrder, plannedKeys, plannedKeys, h.planOf same]

lemma Shuffled.labelsGrouped (h : Shuffled a b) (labels : o.LabelsGrouped a) :
    o.LabelsGrouped b :=
  fun _ _ _ hl => h.mem_groupedSections.mpr (labels hl)

/-- The arena with another lockset of one section. -/
def withLockset (a : Arena) (t : SectionId) (keys : List LockKey) : Arena :=
  a.modifySection t ({ · with lockset := keys })

lemma sections_withLockset {keys : List LockKey} {i : SectionId} :
    (a.withLockset t keys).sections[i]? =
      (a.sections[i]?).map fun s => if t = i then { s with lockset := keys } else s := by
  rw [withLockset, modifySection, List.getElem?_modify]
  rfl

/-- The lockset that a section has is no other one. -/
lemma withLockset_same {u : Section} (hu : a.sections[t]? = some u) :
    a.withLockset t u.lockset = a := by
  have same : (a.withLockset t u.lockset).sections = a.sections := by
    apply List.ext_getElem?
    intro i
    rw [sections_withLockset]
    by_cases e : t = i
    · subst e
      simp [hu]
    · simp [e]
  exact congrArg (fun sections => { a with sections }) same

/-- An arena stays a shuffled one if a lockset is shuffled. -/
lemma Shuffled.withLockset {keys : List LockKey} {u : Section} (h : Shuffled a b)
    (hu : a.sections[t]? = some u) (perm : keys.Perm u.lockset) :
    Shuffled a (b.withLockset t keys) := by
  refine ⟨h.locks, fun i => ?_⟩
  by_cases e : t = i
  · subst e
    obtain ⟨keys', hk, _⟩ := h.sections t
    refine ⟨keys, ?_, ?_⟩
    · rw [sections_withLockset, hk, hu]
      simp
    · intro s hs
      rw [hu] at hs
      cases hs
      exact perm
  · obtain ⟨keys', hk, perm'⟩ := h.sections i
    refine ⟨keys', ?_, perm'⟩
    rw [sections_withLockset, hk]
    cases a.sections[i]? <;> simp [e]

/-- A step of a reordering leaves the section as its plan does. -/
lemma reorderEach_cons {rest : List SectionId} {r : Reordering}
    (h : (reorderEach o (t :: rest) r).fault = none) :
    ∃ u, r.arena.sections[t]? = some u ∧ r.arena.KeysKnown t u ∧ ∃ r' : Reordering,
      r'.arena = r.arena.withLockset t (r.arena.inOrder o t u).lockset ∧
      reorderEach o (t :: rest) r = reorderEach o rest r' := by
  rw [reorderEach] at h ⊢
  cases hp : r.arena.plannedLockset o t with
  | error f =>
    rw [hp] at h
    cases h
  | ok planned =>
    obtain ⟨u, hu, known, planned⟩ := plannedLockset_eq_ok hp
    subst planned
    refine ⟨u, hu, known, ?_⟩
    cases hg : u.isGrouped with
    | false => exact ⟨r, by rw [inOrder_of_ungrouped hg, withLockset_same hu], rfl⟩
    | true =>
      rw [inOrder_of_grouped hg, if_pos rfl]
      by_cases same : r.arena.plannedKeys o t u = ((r.arena.sections[t]?).map (·.lockset)).getD []
      · refine ⟨_, ?_, if_pos same⟩
        rw [hu] at same
        rw [same]
        exact (withLockset_same hu).symm
      · exact ⟨_, rfl, if_neg same⟩

/-- A reordering of some sections leaves the others as they are. -/
lemma reorderEach_frame {ids : List SectionId} {r : Reordering} {i : SectionId} (hi : i ∉ ids) :
    (reorderEach o ids r).arena.sections[i]? = r.arena.sections[i]? := by
  induction ids generalizing r with
  | nil => rfl
  | cons t rest ih =>
    have hrest : i ∉ rest := List.not_mem_of_not_mem_cons hi
    have hne : t ≠ i := fun e => List.ne_of_not_mem_cons hi e.symm
    rw [reorderEach]
    split
    · rfl
    · exact ih hrest
    · rename_i visible keys _
      dsimp only
      split
      · exact ih hrest
      · rw [ih hrest]
        show (r.arena.withLockset t keys).sections[i]? = _
        rw [sections_withLockset]
        simp [hne]

/-- A reordering leaves the groups as they are. -/
lemma groups_reorderEach {ids : List SectionId} {r : Reordering} :
    (reorderEach o ids r).arena.groups = r.arena.groups := by
  induction ids generalizing r with
  | nil => rfl
  | cons t rest ih =>
    rw [reorderEach]
    split
    · rfl
    · exact ih
    · dsimp only
      split
      · exact ih
      · exact ih

/-- A reordering leaves the sections of no group as they are. -/
lemma reorderEach_ungrouped {ids : List SectionId} {r : Reordering} {i : SectionId}
    (hi : i ∉ r.arena.groupedSections) :
    (reorderEach o ids r).arena.sections[i]? = r.arena.sections[i]? := by
  induction ids generalizing r with
  | nil => rfl
  | cons t rest ih =>
    rw [reorderEach]
    split
    · rfl
    · exact ih hi
    · rename_i visible keys hp
      dsimp only
      split
      · exact ih hi
      · -- only a grouped section has a planned lockset
        have hne : t ≠ i := by
          rintro rfl
          obtain ⟨u, hu, hp⟩ := bind_eq_ok.mp hp
          rw [section?_eq_ok] at hu
          split at hp
          · cases hp
          · rename_i grouped
            exact hi (mem_groupedSections.mpr ⟨u, hu, by simpa using grouped⟩)
        have same : (r.arena.withLockset t keys).sections[i]? = r.arena.sections[i]? := by
          rw [sections_withLockset]
          simp [hne]
        refine (ih ?_).trans same
        rw [mem_groupedSections] at hi ⊢
        exact fun h => hi (same ▸ h)

/-- A reordering counts the sections that it changes. -/
lemma changed_reorderEach {ids : List SectionId} {r : Reordering} (nodup : ids.Nodup) :
    (reorderEach o ids r).changed = r.changed + ids.countP fun t =>
      (reorderEach o ids r).arena.sections[t]? ≠ r.arena.sections[t]? := by
  induction ids generalizing r with
  | nil => rfl
  | cons t rest ih =>
    obtain ⟨ht, nodup⟩ := List.nodup_cons.mp nodup
    rw [reorderEach]
    split
    · simp
    · rw [ih nodup, List.countP_cons_of_neg (by simp [reorderEach_frame ht])]
    · rename_i visible keys hp
      dsimp only
      split
      · rw [ih nodup, List.countP_cons_of_neg (by simp [reorderEach_frame ht])]
      · rename_i differs
        obtain ⟨u, hu, _⟩ := bind_eq_ok.mp hp
        rw [section?_eq_ok] at hu
        rw [ih nodup]
        show r.changed + 1 + _ = _
        have others : ∀ i ∈ rest, (r.arena.withLockset t keys).sections[i]? =
            r.arena.sections[i]? := by
          intro i hi
          have hne : t ≠ i := by
            rintro rfl
            exact ht hi
          rw [sections_withLockset]
          simp [hne]
        have own : (r.arena.withLockset t keys).sections[t]? ≠ r.arena.sections[t]? := by
          rw [sections_withLockset, hu]
          intro same
          refine differs ?_
          rw [hu]
          simpa using congrArg (Option.map (·.lockset)) same
        rw [List.countP_cons_of_pos, Nat.add_assoc, Nat.add_comm 1]
        · congr 2
          apply List.countP_congr
          intro i hi
          rw [show (r.arena.modifySection t _).sections[i]? = r.arena.sections[i]? from others i hi]
        · rw [reorderEach_frame ht]
          exact decide_eq_true own

/-- A reordering of some sections shuffles locksets, and leaves each of them as its plan in the
arena before does. -/
lemma reorderEach_planned {ids : List SectionId} {r : Reordering} (nodup : ids.Nodup)
    (shuffled : Shuffled a r.arena) (untouched : ∀ t ∈ ids, r.arena.sections[t]? = a.sections[t]?)
    (h : (reorderEach o ids r).fault = none) :
    Shuffled a (reorderEach o ids r).arena ∧ ∀ t ∈ ids, ∃ u, a.sections[t]? = some u ∧
      a.KeysKnown t u ∧ (reorderEach o ids r).arena.sections[t]? = some (a.inOrder o t u) := by
  induction ids generalizing r with
  | nil => exact ⟨shuffled, nofun⟩
  | cons t rest ih =>
    obtain ⟨ht, nodup⟩ := List.nodup_cons.mp nodup
    obtain ⟨same, untouched⟩ := List.forall_mem_cons.mp untouched
    obtain ⟨u, hu, known, r', ha, step⟩ := reorderEach_cons h
    rw [step] at h ⊢
    have hu' : a.sections[t]? = some u := same.symm.trans hu
    have known' : a.KeysKnown t u := by
      rwa [KeysKnown, shuffled.locks, shuffled.held_eq same] at known
    rw [shuffled.inOrder same] at ha
    have shuffled' : Shuffled a r'.arena := ha ▸ shuffled.withLockset hu' known'.perm
    -- the sections to come are those of the arena before, so their plans are those of that
    have untouched' : ∀ i ∈ rest, r'.arena.sections[i]? = a.sections[i]? := by
      intro i hi
      have hne : t ≠ i := by
        rintro rfl
        exact ht hi
      rw [ha, sections_withLockset, untouched i hi]
      simp [hne]
    obtain ⟨all, planned⟩ := ih nodup shuffled' untouched' h
    refine ⟨all, ?_⟩
    intro i hi
    rcases List.mem_cons.mp hi with rfl | hi
    · -- the rest of the run leaves this section alone
      refine ⟨u, hu', known', ?_⟩
      rw [reorderEach_frame ht, ha, sections_withLockset, hu]
      simp
    · exact planned i hi

section Reorder

variable (fault : (a.reorder o).fault = none)

include fault

/-- A reordering without a fault shuffles locksets. -/
theorem Shuffled.of_reorder : Shuffled a (a.reorder o).arena := by
  obtain ⟨shuffled, _⟩ := reorderEach_planned (r := { arena := a }) List.nodup_range (.refl a)
    (fun _ _ => rfl) fault
  exact shuffled

/-- A reordering without a fault finds the keys of a section, and leaves the section as its plan
does. -/
theorem reorder_section (hu : a.sections[t]? = some u) :
    a.KeysKnown t u ∧ (a.reorder o).arena.sections[t]? = some (a.inOrder o t u) := by
  obtain ⟨_, planned⟩ := reorderEach_planned (r := { arena := a }) List.nodup_range (.refl a)
    (fun _ _ => rfl) fault
  obtain ⟨hlt, _⟩ := List.getElem?_eq_some_iff.mp hu
  obtain ⟨u', hu', known, put⟩ := planned t (List.mem_range.mpr hlt)
  rw [hu] at hu'
  cases hu'
  exact ⟨known, put⟩

/-- A reordering without a fault leaves the locks of a grouped section in the order of its plan. -/
theorem held_reorder (ht : t ∈ a.groupedSections) :
    (a.reorder o).arena.held t = (a.planOf o t).acquired := by
  obtain ⟨u, hu, hg⟩ := mem_groupedSections.mp ht
  obtain ⟨known, put⟩ := reorder_section fault hu
  rw [inOrder_of_grouped hg] at put
  apply held_of_lockNums
  rw [lockNums_eq_ok, (Shuffled.of_reorder fault).locks]
  exact ⟨_, put, LockPlan.map_find?_keys (known hg)⟩

end Reorder

/-- The second arena is the first with locksets in another order, those of grouped sections in the
order of plans. -/
structure Reordered (a : Arena) (o : LockOrder) (b : Arena) : Prop extends Shuffled a b where
  planned : ∀ {t}, t ∈ a.groupedSections →
    ∃ u, b.sections[t]? = some u ∧ a.PlannedKeys o t u.lockset

section Grouped

variable (labels : o.LabelsGrouped a) (fault : (a.reorder o).fault = none)

include labels fault

/-- A reordering without a fault leaves each grouped section with the keys of its plan. -/
theorem reorder_shuffled : a.Reordered o (a.reorder o).arena where
  toShuffled := .of_reorder fault
  planned := by
    intro t ht
    obtain ⟨u, hu, hg⟩ := mem_groupedSections.mp ht
    obtain ⟨known, put⟩ := reorder_section fault hu
    rw [inOrder_of_grouped hg] at put
    refine ⟨_, put, u, a.planOf o t, hu, known hg, fun x y => ?_, rfl⟩
    rw [view_planOf, ownArc_iff_view labels]

/-- A reordering without a fault leaves each grouped section with the locks of its plan. -/
theorem reorder_planned (ht : t ∈ a.groupedSections) :
    a.Planned o t ((a.reorder o).arena.held t) := by
  refine ⟨a.planOf o t, rfl, fun x y => ?_, (held_reorder fault ht).symm⟩
  rw [view_planOf, ownArc_iff_view labels]

end Grouped

end Arena

end Interlock
