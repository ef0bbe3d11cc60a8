import Interlock.Proofs.Membership

/-!
# Arenas that are edited

Between the operations on an arena, records of sections may be rewritten at will, and so may the
lock table (`Arena.Reachable`). Sections and groups then need not agree on who belongs where. A
section that a group lists exists nevertheless (`Reachable.membersExist`): nothing but the
operations writes to lists, and no section is ever removed.
-/

namespace Interlock.Arena

variable {a b : Arena} {i : SectionId} {g into source : GroupId} {s : Section}

/-- The operations lead to the arena, where sections and the lock table are changed at will in
between. -/
inductive Reachable : Arena → Prop
  | empty (locks : LockTable) : Reachable { locks }
  | performed (a : Arena) (op : Operation) : Reachable a → Reachable (a.perform op)
  | edited (a : Arena) (i : SectionId) (f : Section → Section) :
    Reachable a → Reachable (a.modifySection i f)
  | relocked (a : Arena) (locks : LockTable) : Reachable a → Reachable { a with locks }

/-- Every section that a group lists exists. -/
def MembersExist (a : Arena) : Prop := ∀ ⦃g i⦄, a.Lists g i → ∃ s, a.sections[i]? = some s

namespace MembersExist

/-- Sections that stay where they are, under lists that grow by sections that exist. -/
lemma update (h : a.MembersExist) {f : SectionId → Section → Section}
    (sections : ∀ i : SectionId, b.sections[i]? = (a.sections[i]?).map (f i))
    (lists : ∀ g i, b.Lists g i → (∃ k, a.Lists k i) ∨ ∃ s, a.sections[i]? = some s) :
    b.MembersExist := by
  intro g i listed
  have old : ∃ s, a.sections[i]? = some s := by
    rcases lists g i listed with ⟨k, listed⟩ | there
    · exact h listed
    · exact there
  obtain ⟨s, hs⟩ := old
  exact ⟨f i s, by rw [sections, hs, Option.map_some]⟩

lemma modifySection {f : Section → Section} (h : a.MembersExist) :
    (a.modifySection i f).MembersExist := by
  refine h.update (fun _ => sections_modifySection) ?_
  exact fun g j listed => .inl ⟨g, listed⟩

lemma addSection (h : a.MembersExist) : (a.addSection s).1.MembersExist := by
  intro g i listed
  obtain ⟨r, hr⟩ := h listed
  exact ⟨r, (List.getElem?_append_left (List.getElem?_eq_some_iff.mp hr).1).trans hr⟩

lemma assignGroup (h : a.MembersExist) (hb : a.assignGroup i g = .ok b) : b.MembersExist := by
  obtain ⟨group, s, hg, hs, rfl⟩ := assignGroup_eq_ok hb
  have there : (a.leaving i s.group).groups[g]? = some _ :=
    groups_leaving.trans (congrArg (Option.map _) hg)
  have sections : ∀ j : SectionId, ((a.leaving i s.group).joining i g group.number).sections[j]? =
      (a.sections[j]?).map fun s => if i =
        j then { s with group := some g, setNumber := group.number } else s := by
    intro j
    rw [joining, sections_modifySection, modifyGroup, sections_leaving]
  refine h.update sections fun k j listed => ?_
  rw [lists_joining there, lists_leaving] at listed
  rcases listed with ⟨_, rfl⟩ | ⟨listed, _⟩
  · exact .inr ⟨s, hs⟩
  · exact .inl ⟨k, listed⟩

lemma mergeGroups (h : a.MembersExist) (hb : a.mergeGroups into source = .ok b) :
    b.MembersExist := by
  rcases mergeGroups_eq_ok hb with ⟨_, rfl⟩ | ⟨_, m⟩
  · exact h
  · obtain ⟨target, emptied, _, _, sections, _⟩ := m.records
    refine h.update sections fun k i listed => .inl ?_
    rcases m.lists.mp listed with ⟨_, listed | listed⟩ | ⟨_, _, listed⟩
    · exact ⟨into, listed⟩
    · exact ⟨source, listed⟩
    · exact ⟨k, listed⟩

/-- Every operation keeps the members, whether it fails or not. -/
lemma perform (h : a.MembersExist) (op : Operation) : (a.perform op).MembersExist := by
  cases op with
  | addGroup => exact fun g i listed => h (lists_addGroup.mp listed)
  | addSection s => exact h.addSection
  | addSectionTo s g =>
    rw [Arena.perform, Arena.addSectionTo]
    dsimp only
    split
    · rename_i assigned
      exact h.addSection.assignGroup assigned
    · exact h.addSection
  | assignGroup i g => exact getD_induction h fun b hb => h.assignGroup hb
  | mergeGroups into source => exact getD_induction h fun b hb => h.mergeGroups hb
  | acquire i key =>
    refine getD_fst_induction h fun b added hb => ?_
    rcases acquire_eq_ok hb with rfl | rfl
    · exact h
    · exact h.modifySection
  | replaceLockset i lockset =>
    refine getD_induction h fun b hb => ?_
    rw [replaceLockset_eq_ok hb]
    exact h.modifySection
  | locks op => exact h

end MembersExist

/-- Whatever was edited, every section that a group lists exists. -/
theorem Reachable.membersExist (h : a.Reachable) : a.MembersExist := by
  induction h with
  | empty locks =>
    rintro g i ⟨group, hg, _⟩
    cases hg
  | performed a op _ ih => exact ih.perform op
  | edited a i f _ ih => exact ih.modifySection
  | relocked a locks _ ih => exact ih

end Interlock.Arena
