import Interlock.Proofs.LockOrder.Growth
import Interlock.Proofs.LockOrder.Pass

/-!
# Repairs

A repair creates an avoidance lock and grants it to the sections that a conflict involves. The
`*_grant` lemmas say what one grant does to the sections, the lock table and the permanent arcs, the
`*_grantAll` lemmas what a list of grants does, and the `*_repaired` lemmas what the repair of a
conflict does to the state of a search.

Two facts are carried from pass to pass. The arena grows (`grows_repaired`). And every permanent arc
leads from an avoidance lock, which its label holds, to a lock that its label holds as well
(`Progress.Grounded`, kept by `Grounded.repaired`).
-/

namespace Interlock

/-- The section with a key at the end of its lockset, unless it holds it. -/
def Section.granted (s : Section) (key : LockKey) : Section :=
  if s.holds key then s else s.adding [key]

@[simp] lemma Section.holds_granted (s : Section) (key : LockKey) :
    (s.granted key).holds key = true := by
  unfold granted
  split
  · assumption
  · simp [adding, holds]

@[simp] lemma Section.granted_granted (s : Section) (key : LockKey) :
    (s.granted key).granted key = s.granted key := by
  rw [granted, if_pos (s.holds_granted key)]

/-- A grant only adds. -/
lemma Section.granted_eq_adding (s : Section) (key : LockKey) :
    ∃ more, s.granted key = s.adding more := by
  unfold granted
  split
  · exact ⟨[], s.adding_nil.symm⟩
  · exact ⟨[key], rfl⟩

/-- The section exists and does not hold the key. -/
def Arena.Lacks (a : Arena) (t : SectionId) (key : LockKey) : Prop :=
  ∃ s, a.sections[t]? = some s ∧ s.holds key = false

namespace LockSearch

variable {p : Progress} {outer h i t : SectionId} {hs : List SectionId} {key : LockKey}
  {lock x y : LockNum}

/-- A grant changes one section, by the key. -/
lemma sections_grant :
    (grant outer key lock p h).arena.sections[i]? =
      (p.arena.sections[i]?).map fun s => if i = h then s.granted key else s := by
  unfold grant
  cases hh : p.arena.sections[h]? with
  | none =>
    by_cases e : i = h
    · subst e
      simp [hh]
    · simp [e]
  | some s =>
    by_cases hk : s.holds key = true
    · by_cases e : i = h
      · subst e
        simp [hh, hk, Section.granted]
      · simp [hk, e]
    · by_cases e : i = h
      · subst e
        simp [hh, hk, Arena.modifySection, Section.granted, Section.adding]
      · have e' : ¬ h = i := fun k => e k.symm
        simp [hk, e, e', Arena.modifySection]

@[simp] lemma locks_grant : (grant outer key lock p h).arena.locks = p.arena.locks := by
  unfold grant
  split
  · rfl
  · split <;> rfl

@[simp] lemma groups_grant : (grant outer key lock p h).arena.groups = p.arena.groups := by
  unfold grant
  split
  · rfl
  · split <;> rfl

/-- A grant to a section without the key adds arcs to all locks that the section holds. -/
lemma labelled_grant :
    (grant outer key lock p h).permanent.Labelled x y t ↔
      p.permanent.Labelled x y t ∨
        (x = lock ∧ t = h ∧ y ∈ p.arena.held t ∧ p.arena.Lacks t key) := by
  unfold grant Arena.Lacks
  cases hh : p.arena.sections[h]? with
  | none =>
    constructor
    · exact .inl
    · rintro (hl | ⟨_, rfl, _, s, hs, _⟩)
      · exact hl
      · rw [hh] at hs
        cases hs
  | some s =>
    by_cases hk : s.holds key = true
    · simp only [hk, if_true]
      constructor
      · exact .inl
      · rintro (hl | ⟨_, rfl, _, s', hs', hn⟩)
        · exact hl
        · rw [hh] at hs'
          cases hs'
          rw [hk] at hn
          cases hn
    · simp only [hk, Bool.false_eq_true, if_false, LockOrder.labelled_addArcs]
      constructor
      · rintro (⟨rfl, hy, rfl⟩ | hl)
        · exact .inr ⟨rfl, rfl, hy, s, hh, by simpa using hk⟩
        · exact .inl hl
      · rintro (hl | ⟨rfl, rfl, hy, _⟩)
        · exact .inr hl
        · exact .inl ⟨rfl, hy, rfl⟩

/-- Grants change the sections on the list, each by the key. -/
lemma sections_grantAll :
    (hs.foldl (grant outer key lock) p).arena.sections[i]? =
      (p.arena.sections[i]?).map fun s => if i ∈ hs then s.granted key else s := by
  induction hs generalizing p with
  | nil => simp
  | cons h rest ih =>
    rw [List.foldl_cons, ih, sections_grant, Option.map_map]
    congr 1
    funext s
    by_cases e : i = h <;> by_cases k : i ∈ rest <;> simp [e, k]

@[simp] lemma locks_grantAll :
    (hs.foldl (grant outer key lock) p).arena.locks = p.arena.locks := by
  induction hs generalizing p with
  | nil => rfl
  | cons h rest ih => rw [List.foldl_cons, ih, locks_grant]

@[simp] lemma groups_grantAll :
    (hs.foldl (grant outer key lock) p).arena.groups = p.arena.groups := by
  induction hs generalizing p with
  | nil => rfl
  | cons h rest ih => rw [List.foldl_cons, ih, groups_grant]

/-- Grants to others do not change what a section holds. -/
lemma held_grant (hne : t ≠ h) : (grant outer key lock p h).arena.held t = p.arena.held t := by
  unfold Arena.held
  rw [sections_grant, locks_grant]
  cases p.arena.sections[t]? with
  | none => rfl
  | some s => simp [hne]

/-- After a grant the section does not lack the key, and others lack it as before. -/
lemma lacks_grant :
    (grant outer key lock p h).arena.Lacks t key ↔ t ≠ h ∧ p.arena.Lacks t key := by
  unfold Arena.Lacks
  rw [sections_grant]
  cases p.arena.sections[t]? with
  | none => simp
  | some s => by_cases e : t = h <;> simp [e]

/-- Grants add arcs to all locks of those sections on the list that lacked the key. -/
lemma labelled_grantAll :
    (hs.foldl (grant outer key lock) p).permanent.Labelled x y t ↔
      p.permanent.Labelled x y t ∨
        (x = lock ∧ t ∈ hs ∧ y ∈ p.arena.held t ∧ p.arena.Lacks t key) := by
  induction hs generalizing p with
  | nil => simp
  | cons h rest ih =>
    rw [List.foldl_cons, ih, labelled_grant, lacks_grant, List.mem_cons]
    by_cases e : t = h
    · -- only the first grant to a section adds arcs: after it the section has the key
      simp [e]
    · rw [held_grant e]
      tauto

variable {o : LockOrder} {c : LockConflict}

/-- The class that the avoidance lock of a conflict carries. -/
def Progress.owner (p : Progress) (c : LockConflict) : String :=
  ((p.arena.sections[c.outer]?).map (·.owner)).getD ""

/-- The key of the avoidance lock of a conflict. -/
def Progress.newKey (p : Progress) (c : LockConflict) : LockKey := p.arena.locks.nextKey (p.owner c)

/-- The number of the avoidance lock of a conflict. -/
def Progress.newLock (p : Progress) (c : LockConflict) : LockNum :=
  p.arena.locks.nextLock (p.owner c)

/-- A repair grants the key of the avoidance lock to the sections that the conflict involves. -/
lemma sections_repaired :
    (p.repaired o c).arena.sections[i]? =
      (p.arena.sections[i]?).map fun s =>
        if i ∈ implicated o c then s.granted (p.newKey c) else s :=
  sections_grantAll

lemma locks_repaired :
    (p.repaired o c).arena.locks = (p.arena.locks.synthesize (p.owner c)).1 :=
  locks_grantAll

@[simp] lemma groups_repaired : (p.repaired o c).arena.groups = p.arena.groups :=
  groups_grantAll

@[simp] lemma repairs_repaired :
    (p.repaired o c).repairs = p.repairs ++ [{ c with avoidanceLock := some (p.newLock c) }] :=
  rfl

/-- A repair makes an arena grow. -/
lemma grows_repaired : p.arena.Grows (p.repaired o c).arena := by
  constructor
  · intro i
    rw [sections_repaired]
    cases p.arena.sections[i]? with
    | none => exact ⟨[], rfl⟩
    | some s =>
      by_cases hi : i ∈ implicated o c
      · obtain ⟨more, hm⟩ := s.granted_eq_adding (p.newKey c)
        exact ⟨more, by simp [hi, hm]⟩
      · exact ⟨[], by simp [hi]⟩
  · intro key n hn
    rw [locks_repaired]
    exact LockTable.find?_synthesize_of_some hn

/-- After a repair every section that the conflict involves holds the avoidance lock. -/
lemma newLock_mem_held (ht : t ∈ implicated o c) (hg : t ∈ p.arena.groupedSections) :
    p.newLock c ∈ (p.repaired o c).arena.held t := by
  obtain ⟨s, hs, _⟩ := Arena.mem_groupedSections.mp hg
  refine Arena.mem_held.mpr ⟨s.granted (p.newKey c), p.newKey c, ?_, ?_, ?_⟩
  · rw [sections_repaired, hs]
    simp [ht]
  · have hk := s.holds_granted (p.newKey c)
    simpa [Section.holds] using hk
  · rw [locks_repaired, LockTable.find?_synthesize]
    exact if_pos rfl

/-- The permanent arcs after a repair: those from before, and arcs from the avoidance lock to locks
that their labels hold. -/
lemma labelled_repaired (h : (p.repaired o c).permanent.Labelled x y t) :
    p.permanent.Labelled x y t ∨
      (x = p.newLock c ∧ t ∈ implicated o c ∧ y ∈ (p.repaired o c).arena.held t) := by
  rcases labelled_grantAll.mp h with hl | ⟨hx, ht, hy, _⟩
  · exact .inl hl
  · refine .inr ⟨hx, ht, ?_⟩
    obtain ⟨s, key, hs, hk, hf⟩ := Arena.mem_held.mp hy
    obtain ⟨more, hm⟩ := s.granted_eq_adding (p.newKey c)
    refine Arena.mem_held.mpr ⟨s.granted (p.newKey c), key, ?_, ?_, ?_⟩
    · rw [sections_repaired, hs]
      simp [ht]
    · rw [hm]
      exact List.mem_append_left _ hk
    · rw [locks_repaired]
      exact hf

/-- Every permanent arc has a grouped label that holds both its locks, and leads from an avoidance
lock. -/
def Progress.Grounded (p : Progress) : Prop :=
  ∀ ⦃x y t⦄, p.permanent.Labelled x y t →
    t ∈ p.arena.groupedSections ∧ x ∈ p.arena.held t ∧ y ∈ p.arena.held t ∧
      ∃ c ∈ p.repairs, c.avoidanceLock = some x

/-- The labels of the order of a stopped pass are grouped. -/
lemma Progress.Grounded.label_grouped (hp : p.Grounded)
    (hs : LockOrder.Stopped p.arena p.permanent o c) (hl : o.Labelled x y t) :
    t ∈ p.arena.groupedSections := by
  rcases hs.sound hl with hl | ⟨_, ho⟩
  · exact (hp hl).1
  · exact ho.1

/-- The sections that a conflict involves are grouped. -/
lemma Progress.Grounded.implicated_grouped (hp : p.Grounded)
    (hs : LockOrder.Stopped p.arena p.permanent o c) (ht : t ∈ implicated o c) :
    t ∈ p.arena.groupedSections := by
  simp only [implicated, List.mem_cons, List.mem_append, LockOrder.mem_labels] at ht
  rcases ht with rfl | hl | hl
  · exact hs.orders.1
  · exact hp.label_grouped hs hl
  · exact hp.label_grouped hs hl

/-- A repair keeps the permanent arcs grounded. -/
lemma Progress.Grounded.repaired (hp : p.Grounded)
    (hs : LockOrder.Stopped p.arena p.permanent o c) : (p.repaired o c).Grounded := by
  have grows : p.arena.Grows (p.repaired o c).arena := grows_repaired
  intro x y t hl
  rcases labelled_repaired hl with hl | ⟨rfl, ht, hy⟩
  · obtain ⟨hg, hx, hy, d, hd, hx'⟩ := hp hl
    refine ⟨grows.mem_groupedSections.mpr hg, grows.held hx, grows.held hy, d, ?_, hx'⟩
    rw [repairs_repaired]
    exact List.mem_append_left _ hd
  · have hg := hp.implicated_grouped hs ht
    refine ⟨grows.mem_groupedSections.mpr hg, newLock_mem_held ht hg, hy,
      { c with avoidanceLock := some (p.newLock c) }, ?_, rfl⟩
    rw [repairs_repaired]
    exact List.mem_append_right _ (List.mem_singleton.mpr rfl)

end LockSearch

end Interlock
