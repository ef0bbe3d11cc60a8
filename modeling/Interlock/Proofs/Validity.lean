import Interlock.Proofs.LockOrder.Growth
import Interlock.Proofs.Arena

/-!
# Valid arenas

`Arena.Valid` says what `Arena.validate` checks, record by record, and `validate_eq_ok` that it
checks just this. In a valid arena the locks of every section are found (`Valid.lockNums`). An arena
stays valid where sections keep their groups and their keys have numbers (`Valid.update`).
-/

namespace Interlock

/-- A check of all members of a list goes through if each check does. -/
lemma forM_eq_ok {α ε : Type} {f : α → Except ε Unit} {l : List α} :
    l.forM f = .ok () ↔ ∀ x ∈ l, f x = .ok () := by
  induction l with
  | nil => exact ⟨fun _ => nofun, fun _ => rfl⟩
  | cons x rest ih =>
    show f x >>= (fun _ => rest.forM f) = .ok () ↔ _
    rw [bind_eq_ok, List.forall_mem_cons, ← ih]
    constructor
    · rintro ⟨_, hx, hrest⟩
      exact ⟨hx, hrest⟩
    · rintro ⟨hx, hrest⟩
      exact ⟨(), hx, hrest⟩

/-- A check of all members of a list fails by the check of one. -/
lemma forM_eq_error {α ε : Type} {f : α → Except ε Unit} {l : List α} {e : ε}
    (h : l.forM f = .error e) : ∃ x ∈ l, f x = .error e := by
  induction l with
  | nil => cases h
  | cons x rest ih =>
    have h : f x >>= (fun _ => rest.forM f) = .error e := h
    rcases bind_eq_error.mp h with hx | ⟨_, _, hrest⟩
    · exact ⟨x, List.mem_cons_self, hx⟩
    · obtain ⟨y, hy, he⟩ := ih hrest
      exact ⟨y, List.mem_cons_of_mem x hy, he⟩

namespace Arena

variable {a b : Arena} {oracle : Oracle} {i : SectionId} {g : GroupId} {s : Section} {group : Group}

/-- What one section's record says is borne out by the lock table and the groups. -/
structure ValidSection (a : Arena) (i : SectionId) (s : Section) : Prop where
  /-- Every key of the lockset has a number. -/
  keys : ∀ key ∈ s.lockset, ∃ n, a.locks.find? key = some n
  /-- The section's group lists it, and the section carries its number. -/
  grouped : ∀ g, s.group = some g →
    ∃ group, a.groups[g]? = some group ∧ i ∈ group.members ∧ s.setNumber = group.number
  /-- A section of no group takes no lock. -/
  ungrouped : s.group = none → s.setNumber ≤ 0

/-- What one group's record says is borne out by the sections. -/
structure ValidGroup (a : Arena) (g : GroupId) (group : Group) : Prop where
  positive : 0 < group.number
  /-- The members name the group. -/
  members : ∀ i ∈ group.members, ∃ s, a.sections[i]? = some s ∧ s.group = some g

/-- The records of an arena agree with each other. -/
structure Valid (a : Arena) : Prop where
  sections : ∀ {i : SectionId} {s}, a.sections[i]? = some s → a.ValidSection i s
  groups : ∀ {g : GroupId} {group}, a.groups[g]? = some group → a.ValidGroup g group

/-- The numbers of a lockset are found if every key has one. -/
lemma exists_numbersOf {keys : List LockKey} :
    (∃ numbers, a.numbersOf keys = .ok numbers) ↔ ∀ key ∈ keys, ∃ n,
    a.locks.find? key = some n := by
  constructor
  · rintro ⟨numbers, h⟩ key hk
    have hmem : a.locks.find? key ∈ numbers.map some := by
      rw [← numbersOf_eq_ok.mp h]
      exact List.mem_map_of_mem hk
    obtain ⟨n, _, hn⟩ := List.mem_map.mp hmem
    exact ⟨n, hn.symm⟩
  · intro h
    induction keys with
    | nil => exact ⟨[], rfl⟩
    | cons key rest ih =>
      obtain ⟨hkey, hrest⟩ := List.forall_mem_cons.mp h
      obtain ⟨n, hn⟩ := hkey
      obtain ⟨numbers, hnumbers⟩ := ih hrest
      refine ⟨n :: numbers, numbersOf_eq_ok.mpr ?_⟩
      rw [List.map_cons, List.map_cons, hn, numbersOf_eq_ok.mp hnumbers]

lemma checkSection_eq_ok : a.checkSection i s = .ok () ↔ a.ValidSection i s := by
  unfold checkSection
  rw [bind_eq_ok]
  constructor
  · rintro ⟨numbers, hn, h⟩
    refine ⟨exists_numbersOf.mp ⟨numbers, hn⟩, ?_, ?_⟩
    · intro g hg
      simp only [hg] at h
      obtain ⟨group, hgroup, h⟩ := bind_eq_ok.mp h
      cases listed : group.members.contains i with
      | false =>
        rw [listed] at h
        cases h
      | true =>
        by_cases number : s.setNumber = group.number
        · exact ⟨group, group?_eq_ok.mp hgroup, SortedSet.contains_eq_true.mp listed, number⟩
        · simp only [listed, number, Bool.not_true, Bool.false_eq_true, ne_eq, not_false_eq_true,
            if_true, if_false] at h
          cases h
    · intro hg
      by_contra locked
      simp only [hg, Int.not_le.mp locked, if_true] at h
      cases h
  · intro h
    obtain ⟨numbers, hn⟩ := exists_numbersOf.mpr h.keys
    refine ⟨numbers, hn, ?_⟩
    cases hs : s.group with
    | none => exact if_neg (Int.not_lt.mpr (h.ungrouped hs))
    | some g =>
      obtain ⟨group, hgroup, listed, number⟩ := h.grouped g hs
      refine bind_eq_ok.mpr ⟨group, group?_eq_ok.mpr hgroup, ?_⟩
      rw [SortedSet.contains_eq_true.mpr listed]
      exact if_neg (not_not.mpr number)

lemma checkGroup_eq_ok : a.checkGroup g group = .ok () ↔ a.ValidGroup g group := by
  unfold checkGroup
  have member : ∀ i : SectionId,
      (do if (← a.section? i).group ≠ some g then throw (.arena (.strayMember g i)) :
        Except Fault Unit) = .ok () ↔ ∃ s, a.sections[i]? = some s ∧ s.group = some g := by
    intro i
    rw [bind_eq_ok]
    apply exists_congr
    intro s
    rw [section?_eq_ok]
    apply and_congr_right
    intro _
    split
    · rename_i hne
      exact ⟨nofun, fun e => absurd e hne⟩
    · rename_i heq
      exact ⟨fun _ => not_not.mp heq, fun _ => rfl⟩
  split
  · rename_i number
    exact ⟨nofun, fun h => absurd h.positive (Int.not_lt.mpr number)⟩
  · rename_i number
    rw [forM_eq_ok]
    constructor
    · intro h
      exact ⟨Int.not_le.mp number, fun i hi => (member i).mp (h i hi)⟩
    · intro h i hi
      exact (member i).mpr (h.members i hi)

/-- An arena passes the check if its records agree with each other. -/
theorem validate_eq_ok : a.validate = .ok () ↔ a.Valid := by
  unfold validate
  rw [bind_eq_ok]
  constructor
  · rintro ⟨_, hsections, hgroups⟩
    have hsections := forM_eq_ok.mp hsections
    have hgroups := forM_eq_ok.mp hgroups
    constructor
    · intro i s hs
      exact checkSection_eq_ok.mp (hsections (s, i) (List.mk_mem_zipIdx_iff_getElem?.mpr hs))
    · intro g group hg
      exact checkGroup_eq_ok.mp (hgroups (group, g) (List.mk_mem_zipIdx_iff_getElem?.mpr hg))
  · intro h
    refine ⟨(), forM_eq_ok.mpr ?_, forM_eq_ok.mpr ?_⟩
    · rintro ⟨s, i⟩ hmem
      exact checkSection_eq_ok.mpr (h.sections (List.mk_mem_zipIdx_iff_getElem?.mp hmem))
    · rintro ⟨group, g⟩ hmem
      exact checkGroup_eq_ok.mpr (h.groups (List.mk_mem_zipIdx_iff_getElem?.mp hmem))

/-- The locks of a section are found. -/
lemma Valid.lockNums (h : a.Valid) (hs : a.sections[i]? = some s) :
    a.lockNums i = .ok (a.held i) := by
  obtain ⟨numbers, hn⟩ := exists_numbersOf.mpr (h.sections hs).keys
  have found : a.lockNums i = .ok numbers := lockNums_eq_ok.mpr ⟨s, hs, numbersOf_eq_ok.mp hn⟩
  rw [held_of_lockNums found]
  exact found

/-- Sections that keep their groups and whose keys have numbers stay valid. -/
lemma Valid.update (h : a.Valid) {f : SectionId → Section → Section} (groups : b.groups = a.groups)
    (sections : ∀ i : SectionId, b.sections[i]? = (a.sections[i]?).map (f i))
    (group : ∀ i s, (f i s).group = s.group) (number : ∀ i s, (f i s).setNumber = s.setNumber)
    (keys : ∀ i s, a.sections[i]? = some s → ∀ key ∈ (f i s).lockset,
      ∃ n, b.locks.find? key = some n) : b.Valid := by
  constructor
  · intro i s' hs'
    rw [sections] at hs'
    obtain ⟨s, hs, rfl⟩ := Option.map_eq_some_iff.mp hs'
    have valid := h.sections hs
    refine ⟨keys i s hs, ?_, ?_⟩
    · rw [group, number, groups]
      exact valid.grouped
    · rw [group, number]
      exact valid.ungrouped
  · intro g record hg
    rw [groups] at hg
    have valid := h.groups hg
    refine ⟨valid.positive, ?_⟩
    intro i hi
    obtain ⟨s, hs, hsg⟩ := valid.members i hi
    refine ⟨f i s, ?_, (group i s).trans hsg⟩
    rw [sections, hs, Option.map_some]

/-- Known targets do not matter to validity. -/
lemma Valid.ensureAllTargets (h : a.Valid) : (a.ensureAllTargets oracle).Valid := by
  refine h.update (f := fun _ s => s.withTargets oracle) rfl (fun _ => sections_ensureAllTargets)
    ?_ ?_ ?_
  · intro _ s
    obtain ⟨targets, ht⟩ := s.exists_withTargets oracle
    rw [ht]
  · intro _ s
    obtain ⟨targets, ht⟩ := s.exists_withTargets oracle
    rw [ht]
  · intro i s hs key hk
    obtain ⟨targets, ht⟩ := s.exists_withTargets oracle
    rw [ht] at hk
    exact (h.sections hs).keys key hk

end Arena

end Interlock
