import Interlock.Proofs.Arena
import Mathlib.Tactic.Common

/-!
# Arenas that the operations build

The groups of an arena are numbered from one in order of creation (`Arena.Numbered`), since only
`Arena.addGroup` gives a number. `Arena.validate` does not check this; it holds of every arena that
the operations build (`Arena.Built.numbered`).

`Arena.Merged` says what a merge of two groups does to the sections and to the groups, and
`mergeGroups_eq_ok` that a merge does just this. A section that is put into a group leaves the one
that its record names (`Arena.leaving`) and joins the other (`Arena.joining`), and
`assignGroup_eq_ok` says that nothing else is done.
-/

namespace Interlock.Arena

variable {a b : Arena} {i : SectionId} {g k into source : GroupId} {target emptied group : Group}
  {s : Section} {members : List SectionId}

/-- The groups are numbered from one, in order. -/
def Numbered (a : Arena) : Prop := ∀ ⦃g : GroupId⦄ ⦃r⦄, a.groups[g]? = some r → r.number = g + 1

/-- Two groups have the same number only if they are the same. -/
lemma Numbered.inj (h : a.Numbered) {k : GroupId} {r s : Group} (hg : a.groups[g]? = some r)
    (hk : a.groups[k]? = some s) (e : r.number = s.number) : g = k := by
  rw [h hg, h hk] at e
  exact Int.natCast_inj.mp (Int.add_left_inj 1 |>.mp e)

lemma Numbered.ensureAllTargets {oracle : Oracle} (h : a.Numbered) :
    (a.ensureAllTargets oracle).Numbered := h

lemma groups_modifyGroup {f : Group → Group} :
    (a.modifyGroup into f).groups[g]? =
      (a.groups[g]?).map fun r => if into = g then f r else r := by
  rw [modifyGroup, List.getElem?_modify]
  rfl

lemma sections_modifySection {f : Section → Section} {t : SectionId} :
    (a.modifySection t f).sections[i]? =
      (a.sections[i]?).map fun s => if t = i then f s else s := by
  rw [modifySection, List.getElem?_modify]
  rfl

/-- A change of groups that keeps their numbers. -/
lemma Numbered.modifyGroup {f : Group → Group} (h : a.Numbered)
    (hf : ∀ r, (f r).number = r.number) :
    (a.modifyGroup into f).Numbered := by
  intro g r hr
  rw [groups_modifyGroup] at hr
  obtain ⟨s, hs, rfl⟩ := Option.map_eq_some_iff.mp hr
  split
  · rw [hf]
    exact h hs
  · exact h hs

lemma Numbered.addGroup (h : a.Numbered) : a.addGroup.1.Numbered := by
  intro g r hr
  rcases getElem?_concat_eq_some.mp hr with old | ⟨rfl, rfl⟩
  · exact h old
  · rfl

/-! ## Assignment to a group -/

/-- The arena after a section has left the group that its record names. -/
def leaving (a : Arena) (i : SectionId) : Option GroupId → Arena
  | none => a
  | some k => a.modifyGroup k fun r => { r with members := r.members.erase i }

/-- The arena after a section has joined a group of the given number. -/
def joining (a : Arena) (i : SectionId) (g : GroupId) (number : Int) : Arena :=
  (a.modifyGroup g fun r => { r with members := r.members.insert i }).modifySection i fun s =>
    { s with group := some g, setNumber := number }

lemma sections_leaving {named : Option GroupId} : (a.leaving i named).sections = a.sections := by
  cases named <;> rfl

lemma groups_leaving {named : Option GroupId} :
    (a.leaving i named).groups[g]? = (a.groups[g]?).map fun r =>
      if named = some g then { r with members := r.members.erase i } else r := by
  cases named with
  | none => simp [leaving]
  | some k =>
    rw [leaving, groups_modifyGroup]
    simp only [Option.some_inj]

lemma length_groups_leaving {named : Option GroupId} :
    (a.leaving i named).groups.length = a.groups.length := by
  cases named with
  | none => rfl
  | some k => exact List.length_modify ..

/-- A section leaves its group and joins another, where both exist. -/
lemma assignGroup_of_found (hg : a.groups[g]? = some group) (hs : a.sections[i]? = some s)
    (there : ∀ k, s.group = some k → k < a.groups.length) :
    a.assignGroup i g = .ok ((a.leaving i s.group).joining i g group.number) := by
  unfold assignGroup
  rw [group?_eq_ok.mpr hg, section?_eq_ok.mpr hs]
  dsimp only [Except.mapError, bind, Except.bind]
  cases hk : s.group with
  | none => rfl
  | some k =>
    dsimp only
    rw [if_pos (there k hk)]
    rfl

/-- A group that does not exist cannot be left. -/
lemma assignGroup_of_lost (hg : a.groups[g]? = some group) (hs : a.sections[i]? = some s)
    (hk : s.group = some k) (lost : a.groups.length ≤ k) :
    a.assignGroup i g = .error (.lostGroup k) := by
  unfold assignGroup
  rw [group?_eq_ok.mpr hg, section?_eq_ok.mpr hs]
  dsimp only [Except.mapError, bind, Except.bind]
  rw [hk]
  dsimp only
  rw [if_neg (Nat.not_lt.mpr lost)]
  rfl

/-- Without the group or the section there is no assignment. -/
lemma assignGroup_of_missing (missing : a.groups[g]? = none ∨ a.sections[i]? = none) :
    ∃ f, a.assignGroup i g = .error (.fault f) := by
  unfold assignGroup
  cases hg : a.groups[g]? with
  | none =>
    rw [group?, hg]
    exact ⟨_, rfl⟩
  | some group =>
    rw [group?_eq_ok.mpr hg, section?, missing.resolve_left (by rw [hg]; nofun)]
    exact ⟨_, rfl⟩

/-- An assignment goes through, or misses what it refers to, or would have to leave a group that
does not exist. -/
lemma assignGroup_cases (a : Arena) (i : SectionId) (g : GroupId) :
    (∃ group s, a.groups[g]? = some group ∧ a.sections[i]? = some s ∧
      a.assignGroup i g = .ok ((a.leaving i s.group).joining i g group.number)) ∨
    (∃ f, a.assignGroup i g = .error (.fault f)) ∨
    ∃ s k, a.sections[i]? = some s ∧ s.group = some k ∧ a.groups.length ≤ k ∧
      a.assignGroup i g = .error (.lostGroup k) := by
  cases hg : a.groups[g]? with
  | none => exact .inr (.inl (assignGroup_of_missing (.inl hg)))
  | some group =>
    cases hs : a.sections[i]? with
    | none => exact .inr (.inl (assignGroup_of_missing (.inr hs)))
    | some s =>
      by_cases lost : ∃ k, s.group = some k ∧ a.groups.length ≤ k
      · obtain ⟨k, hk, lost⟩ := lost
        exact .inr (.inr ⟨s, k, rfl, hk, lost, assignGroup_of_lost hg hs hk lost⟩)
      · have there : ∀ k, s.group = some k → k < a.groups.length :=
          fun k hk => Nat.lt_of_not_le fun le => lost ⟨k, hk, le⟩
        exact .inl ⟨group, s, rfl, rfl, assignGroup_of_found hg hs there⟩

/-- What an assignment that goes through has done. -/
lemma assignGroup_eq_ok (h : a.assignGroup i g = .ok b) :
    ∃ group s, a.groups[g]? = some group ∧ a.sections[i]? = some s ∧
      b = (a.leaving i s.group).joining i g group.number := by
  rcases assignGroup_cases a i g with ⟨group, s, hg, hs, hb⟩ | ⟨f, hf⟩ | ⟨_, _, _, _, _, hf⟩
  · rw [h] at hb
    exact ⟨group, s, hg, hs, Except.ok.inj hb⟩
  · rw [h] at hf
    cases hf
  · rw [h] at hf
    cases hf

/-- A section that is added to a group that exists joins it. -/
lemma addSectionTo_joining (hg : a.groups[g]? = some group) :
    a.addSectionTo s g =
      ((a.addSection s).1.joining a.sections.length g group.number, .ok a.sections.length) := by
  have last : (a.addSection s).1.sections[a.sections.length]? =
      some { s with group := none, setNumber := 0 } :=
    List.getElem?_concat_length
  have assigned := assignGroup_of_found (a := (a.addSection s).1) hg last nofun
  unfold addSectionTo
  rw [addSection] at assigned ⊢
  dsimp only
  rw [assigned]
  rfl

/-- A section that is added to a group that does not exist stays in no group. -/
lemma addSectionTo_of_missing (missing : a.groups[g]? = none) :
    a.addSectionTo s g = ((a.addSection s).1, .error (.fault (.unknownGroup g))) := by
  have unknown : (a.addSection s).1.group? g = .error (.unknownGroup g) := by
    rw [group?, addSection, missing]
  have failed : (a.addSection s).1.assignGroup a.sections.length g =
      .error (.fault (.unknownGroup g)) := by
    rw [assignGroup, unknown]
    rfl
  unfold addSectionTo
  rw [addSection] at failed ⊢
  dsimp only
  rw [failed]

/-- A section that is added to a group that exists is the last one, and has the number of the
group. -/
lemma addSectionTo_of_found (hg : a.groups[g]? = some group) :
    (a.addSectionTo s g).1.sections =
      a.sections ++ [{ s with group := some g, setNumber := group.number }] ∧
      (a.addSectionTo s g).1.locks = a.locks ∧
      (a.addSectionTo s g).1.groups.length = a.groups.length := by
  rw [addSectionTo_joining hg]
  refine ⟨?_, rfl, List.length_modify _ _ _⟩
  exact modify_concat

/-- An assignment keeps the numbers of the groups. -/
lemma Numbered.assignGroup (h : a.Numbered) (hb : a.assignGroup i g = .ok b) : b.Numbered := by
  obtain ⟨group, s, _, _, rfl⟩ := assignGroup_eq_ok hb
  apply Numbered.modifyGroup (a := a.leaving i s.group)
  · cases s.group with
    | none => exact h
    | some k => exact h.modifyGroup fun _ => rfl
  · exact fun _ => rfl

/-! ## Locksets -/

/-- A lock that is acquired is written to the section, unless the section holds it. -/
lemma acquire_eq_ok {key : LockKey} {added : Bool} (h : a.acquire i key = .ok (b, added)) :
    b = a ∨ b = a.modifySection i fun s => { s with lockset := s.lockset ++ [key] } := by
  obtain ⟨s, _, h⟩ := bind_eq_ok.mp h
  split at h
  · cases h
    exact .inl rfl
  · cases h
    exact .inr rfl

/-- A lockset that is replaced is written to the section. -/
lemma replaceLockset_eq_ok {lockset : List LockKey} (h : a.replaceLockset i lockset = .ok b) :
    b = a.modifySection i fun s => { s with lockset } := by
  obtain ⟨s, _, h⟩ := bind_eq_ok.mp h
  cases h
  rfl

/-! ## Merges -/

/-- Sections change one by one, each at most as if it changed once. -/
lemma sections_modifyAll {f : Section → Section} (idem : ∀ s, f (f s) = f s) :
    (members.foldl (fun a member => a.modifySection member f) a).sections[i]? =
      (a.sections[i]?).map fun s => if i ∈ members then f s else s := by
  induction members generalizing a with
  | nil => simp
  | cons member rest ih =>
    rw [List.foldl_cons, ih, sections_modifySection, Option.map_map]
    congr 1
    funext s
    by_cases e : member = i
    · by_cases k : i ∈ rest <;> simp [e, k, idem]
    · have e' : i ≠ member := fun h => e h.symm
      simp [e, e']

lemma groups_modifyAll {f : Section → Section} :
    (members.foldl (fun a member => a.modifySection member f) a).groups = a.groups := by
  induction members generalizing a with
  | nil => rfl
  | cons member rest ih => rw [List.foldl_cons, ih, modifySection]

lemma locks_modifyAll {f : Section → Section} :
    (members.foldl (fun a member => a.modifySection member f) a).locks = a.locks := by
  induction members generalizing a with
  | nil => rfl
  | cons member rest ih => rw [List.foldl_cons, ih, modifySection]

/-- The second arena is the first with the members of one group moved to another. -/
structure Merged (a b : Arena) (into source : GroupId) : Prop where
  locks : b.locks = a.locks
  /-- Both groups exist. -/
  records : ∃ target emptied, a.groups[into]? = some target ∧ a.groups[source]? = some emptied ∧
    (∀ i : SectionId, b.sections[i]? = (a.sections[i]?).map fun s =>
      if i ∈ emptied.members then { s with group := some into, setNumber := target.number }
      else s) ∧
    ∀ g : GroupId, b.groups[g]? = (a.groups[g]?).map fun r =>
      if into = g then { r with members := r.members.union emptied.members }
      else if source = g then { r with members := .empty } else r

/-- A merge of two different groups moves the members of the second to the first. -/
lemma mergeGroups_merged (hne : into ≠ source) (hi : a.groups[into]? = some target)
    (hs : a.groups[source]? = some emptied) :
    ∃ b, a.mergeGroups into source = .ok b ∧ a.Merged b into source := by
  unfold mergeGroups
  rw [group?_eq_ok.mpr hi, group?_eq_ok.mpr hs]
  refine ⟨_, if_neg hne, ?_, target, emptied, hi, hs, ?_, ?_⟩
  · exact locks_modifyAll
  · intro i
    refine (sections_modifyAll ?_).trans ?_
    · intro s
      rfl
    · rfl
  · intro g
    rw [groups_modifyGroup, groups_modifyGroup, groups_modifyAll, Option.map_map]
    congr 1
    funext r
    by_cases h : into = g
    · subst h
      simp [hne.symm]
    · by_cases k : source = g <;> simp [h, k]

/-- A merge goes through if both groups exist. -/
lemma exists_mergeGroups (hi : a.groups[into]? = some target)
    (hs : a.groups[source]? = some emptied) :
    ∃ b, a.mergeGroups into source = .ok b := by
  by_cases same : into = source
  · unfold mergeGroups
    rw [group?_eq_ok.mpr hi, group?_eq_ok.mpr hs]
    exact ⟨a, if_pos same⟩
  · obtain ⟨b, hb, _⟩ := mergeGroups_merged same hi hs
    exact ⟨b, hb⟩

/-- What a merge that goes through has done. -/
lemma mergeGroups_eq_ok (h : a.mergeGroups into source = .ok b) :
    (into = source ∧ b = a) ∨ (into ≠ source ∧ a.Merged b into source) := by
  obtain ⟨target, ht, h'⟩ := bind_eq_ok.mp h
  obtain ⟨emptied, he, h'⟩ := bind_eq_ok.mp h'
  by_cases same : into = source
  · simp only [same, if_true] at h'
    cases h'
    exact .inl ⟨same, rfl⟩
  · obtain ⟨b', hb', merged⟩ := mergeGroups_merged same (group?_eq_ok.mp ht) (group?_eq_ok.mp he)
    rw [h] at hb'
    cases hb'
    exact .inr ⟨same, merged⟩

/-- A merge keeps the numbers of the groups. -/
lemma Merged.numbered (h : a.Merged b into source) (ha : a.Numbered) : b.Numbered := by
  obtain ⟨target, emptied, _, _, _, groups⟩ := h.records
  intro g r hr
  rw [groups] at hr
  obtain ⟨s, hs, rfl⟩ := Option.map_eq_some_iff.mp hr
  have number := ha hs
  split
  · exact number
  · split
    · exact number
    · exact number

/-! ## Arenas that are built -/

/-- The operations lead to the arena. Sections and the lock table may be changed at will, groups
only by the operations. -/
inductive Built : Arena → Prop
  | empty (locks : LockTable) : Built { locks }
  | group (a : Arena) : Built a → Built a.addGroup.1
  | entered (a : Arena) (s : Section) : Built a → Built (a.addSection s).1
  | assigned (a b : Arena) (i : SectionId) (g : GroupId) :
    Built a → a.assignGroup i g = .ok b → Built b
  | merged (a b : Arena) (into source : GroupId) :
    Built a → a.mergeGroups into source = .ok b → Built b
  | edited (a : Arena) (sections : List Section) (locks : LockTable) :
    Built a → Built { a with sections, locks }

/-- The groups of an arena that the operations lead to are numbered from one. -/
theorem Built.numbered (h : a.Built) : a.Numbered := by
  induction h with
  | empty locks =>
    intro g r hr
    cases hr
  | group a _ ih => exact ih.addGroup
  | entered a s _ ih => exact ih
  | assigned a b i g _ hb ih => exact ih.assignGroup hb
  | merged a b into source _ hb ih =>
    rcases mergeGroups_eq_ok hb with ⟨_, rfl⟩ | ⟨_, merged⟩
    · exact ih
    · exact merged.numbered ih
  | edited a sections locks _ ih => exact ih

end Interlock.Arena
