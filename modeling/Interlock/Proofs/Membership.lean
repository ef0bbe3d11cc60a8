import Interlock.Proofs.GroupOrder.Merge
import Interlock.Proofs.Lock.History

/-!
# Who belongs to which group

Membership is recorded by the section and by the group, and a section carries its group's number
besides. `Arena.Coherent` says that these records agree. It holds of the empty arena, and every
operation keeps it (`Coherent.perform`), so it holds whatever the operations were and whichever of
them failed (`Arena.upheld_after`).

A coherent arena is valid but for the keys of its locksets (`Coherent.valid`), so its check fails
for a key without a number only (`Coherent.validate_eq_error`).
-/

namespace Interlock.Arena

variable {a b : Arena} {i : SectionId} {g into source : GroupId} {s : Section} {key : LockKey}
  {group : Group}

/-- The records of sections and groups agree on who belongs where. -/
structure Coherent (a : Arena) : Prop where
  /-- A group lists the sections that name it, and no others. -/
  lists : a.ListsNamed
  /-- Groups are numbered from one, in order. -/
  numbered : a.Numbered
  /-- A section carries the number of its group. -/
  carries : ∀ ⦃i : SectionId⦄ ⦃s⦄, a.sections[i]? = some s →
    ∀ g, s.group = some g → s.setNumber = g + 1
  /-- A section of no group carries zero. -/
  free : ∀ ⦃i : SectionId⦄ ⦃s⦄, a.sections[i]? = some s → s.group = none → s.setNumber = 0

/-! ## The check of a coherent arena -/

namespace Coherent

lemma validSection (h : a.Coherent) (hs : a.sections[i]? = some s)
    (keys : ∀ key ∈ s.lockset, ∃ n, a.locks.find? key = some n) : a.ValidSection i s := by
  refine ⟨keys, ?_, ?_⟩
  · intro g hg
    obtain ⟨group, hgroup, listed⟩ := (h.lists g i).mpr (groupOf_eq_some.mpr ⟨s, hs, hg⟩)
    exact ⟨group, hgroup, listed, (h.carries hs g hg).trans (h.numbered hgroup).symm⟩
  · intro hg
    exact (h.free hs hg).le

lemma validGroup (h : a.Coherent) (hg : a.groups[g]? = some group) : a.ValidGroup g group := by
  constructor
  · rw [h.numbered hg]
    exact Int.natCast_succ_pos g
  · intro i hi
    exact groupOf_eq_some.mp ((h.lists g i).mp ⟨group, hg, hi⟩)

/-- A coherent arena is valid if every key of a lockset has a number. -/
lemma valid (h : a.Coherent)
    (keys : ∀ ⦃i : SectionId⦄ ⦃s⦄, a.sections[i]? = some s →
      ∀ key ∈ s.lockset, ∃ n, a.locks.find? key = some n) : a.Valid :=
  ⟨fun hs => h.validSection hs (keys hs), fun hg => h.validGroup hg⟩

/-- The check of a coherent arena fails for a key without a number only. -/
lemma validate_eq_error {f : Fault} (h : a.Coherent) (hf : a.validate = .error f) :
    ∃ (i : SectionId) (s : Section) (key : LockKey), a.sections[i]? = some s ∧ key ∈ s.lockset ∧
      a.locks.find? key = none ∧ f = .unknownLock key.text := by
  rcases bind_eq_error.mp hf with hf | ⟨_, _, hf⟩
  · obtain ⟨⟨s, i⟩, hmem, hf⟩ := forM_eq_error hf
    have hs : a.sections[i]? = some s := List.mk_mem_zipIdx_iff_getElem?.mp hmem
    have hf : a.checkSection i s = .error f := hf
    rcases bind_eq_error.mp hf with missing | ⟨numbers, hn, _⟩
    · obtain ⟨key, hk, unknown, rfl⟩ := numbersOf_eq_error missing
      exact ⟨i, s, key, hs, hk, unknown, rfl⟩
    · have passed := checkSection_eq_ok.mpr (h.validSection hs (exists_numbersOf.mp ⟨numbers, hn⟩))
      rw [passed] at hf
      cases hf
  · obtain ⟨⟨group, g⟩, hmem, hf⟩ := forM_eq_error hf
    have hg : a.groups[g]? = some group := List.mk_mem_zipIdx_iff_getElem?.mp hmem
    have hf : a.checkGroup g group = .error f := hf
    rw [checkGroup_eq_ok.mpr (h.validGroup hg)] at hf
    cases hf

/-! ## Operations that leave groups alone -/

/-- Sections that keep their groups and their numbers stay coherent. -/
lemma update (h : a.Coherent) {f : SectionId → Section → Section} (groups : b.groups = a.groups)
    (sections : ∀ i : SectionId, b.sections[i]? = (a.sections[i]?).map (f i))
    (group : ∀ i s, (f i s).group = s.group) (number : ∀ i s, (f i s).setNumber = s.setNumber) :
    b.Coherent := by
  have same : ∀ i : SectionId, b.groupOf i = a.groupOf i := by
    intro i
    rw [groupOf, sections, groupOf]
    cases a.sections[i]? with
    | none => rfl
    | some s => exact group i s
  constructor
  · intro g i
    rw [Lists, groups, same]
    exact h.lists g i
  · intro g r hr
    rw [groups] at hr
    exact h.numbered hr
  · intro i s' hs' g hg
    rw [sections] at hs'
    obtain ⟨s, hs, rfl⟩ := Option.map_eq_some_iff.mp hs'
    rw [number]
    exact h.carries hs g ((group i s).symm.trans hg)
  · intro i s' hs' hg
    rw [sections] at hs'
    obtain ⟨s, hs, rfl⟩ := Option.map_eq_some_iff.mp hs'
    rw [number]
    exact h.free hs ((group i s).symm.trans hg)

/-- One section gets other locks. -/
lemma withLockset {f : Section → List LockKey} (h : a.Coherent) :
    (a.modifySection i fun s => { s with lockset := f s }).Coherent := by
  refine h.update (f := fun j s => if i = j then { s with lockset := f s } else s) rfl
    (fun j => sections_modifySection) ?_ ?_
  · intro j s
    split <;> rfl
  · intro j s
    split <;> rfl

lemma acquire {added : Bool} (h : a.Coherent) (hb : a.acquire i key = .ok (b, added)) :
    b.Coherent := by
  rcases acquire_eq_ok hb with rfl | rfl
  · exact h
  · exact h.withLockset

lemma replaceLockset {lockset : List LockKey} (h : a.Coherent)
    (hb : a.replaceLockset i lockset = .ok b) : b.Coherent := by
  rw [replaceLockset_eq_ok hb]
  exact h.withLockset

end Coherent

/-! ## Operations on groups -/

lemma coherent_empty : Arena.empty.Coherent := by
  refine ⟨?_, nofun, nofun, nofun⟩
  intro g i
  constructor
  · rintro ⟨group, hg, _⟩
    cases hg
  · nofun

/-- A section that is added is the last one, and belongs to no group. -/
lemma sections_addSection {r : Section} (hr : (a.addSection s).1.sections[i]? = some r) :
    a.sections[i]? = some r ∨ (r.group = none ∧ r.setNumber = 0) := by
  rcases getElem?_concat_eq_some.mp hr with old | ⟨_, rfl⟩
  · exact .inl old
  · exact .inr ⟨rfl, rfl⟩

lemma groupOf_addSection : (a.addSection s).1.groupOf i = a.groupOf i := by
  rw [groupOf, addSection, groupOf, List.getElem?_append]
  split
  · rfl
  · rename_i out
    rw [List.getElem?_eq_none (Nat.not_lt.mp out), List.getElem?_singleton]
    split <;> rfl

/-- A section that joins a group belongs to it, and the others to theirs. -/
lemma groupOf_joining {number : Int} {j : SectionId} (hs : a.sections[i]? = some s) :
    (a.joining i g number).groupOf j = if i = j then some g else a.groupOf j := by
  rw [groupOf, joining, sections_modifySection, modifyGroup, groupOf]
  split
  · rename_i e
    subst e
    rw [hs]
    rfl
  · rw [Option.map_id_fun']
    rfl

/-- A section that joins a group is on its list, and the other lists stay. -/
lemma lists_joining {number : Int} {j : SectionId} {k : GroupId} (hg : a.groups[g]? = some group) :
    (a.joining i g number).Lists k j ↔ (g = k ∧ j = i) ∨ a.Lists k j := by
  unfold Lists joining
  rw [modifySection, groups_modifyGroup]
  by_cases e : g = k
  · subst e
    simp [hg]
  · simp [e]

/-- A section that leaves a group is taken from its list, and the other lists stay. -/
lemma lists_leaving {named : Option GroupId} {j : SectionId} {k : GroupId} :
    (a.leaving i named).Lists k j ↔ a.Lists k j ∧ ¬ (named = some k ∧ j = i) := by
  unfold Lists
  rw [groups_leaving]
  cases a.groups[k]? with
  | none => simp
  | some group => by_cases e : named = some k <;> simp [e]

/-- A group that is added has no members, and the other lists stay. -/
lemma lists_addGroup : a.addGroup.1.Lists g i ↔ a.Lists g i := by
  constructor
  · rintro ⟨group, hg, listed⟩
    rcases getElem?_concat_eq_some.mp hg with hg | ⟨_, rfl⟩
    · exact ⟨group, hg, listed⟩
    · exact absurd listed SortedSet.not_mem_empty
  · rintro ⟨group, hg, listed⟩
    have old : g < a.groups.length := (List.getElem?_eq_some_iff.mp hg).1
    exact ⟨group, (List.getElem?_append_left old).trans hg, listed⟩

/-- A merge adds the one list to the other and empties it, and the other lists stay. -/
lemma Merged.lists {k : GroupId} (m : a.Merged b into source) :
    b.Lists k i ↔ (into = k ∧ (a.Lists into i ∨ a.Lists source i)) ∨
      (into ≠ k ∧ source ≠ k ∧ a.Lists k i) := by
  obtain ⟨target, emptied, ht, he, _, groups⟩ := m.records
  unfold Lists
  rw [groups]
  by_cases first : into = k
  · subst first
    simp [ht, he]
  · by_cases second : source = k
    · simp [first, second]
    · simp [first, second]

namespace Coherent

lemma addGroup (h : a.Coherent) : a.addGroup.1.Coherent :=
  ⟨fun g i => lists_addGroup.trans (h.lists g i), h.numbered.addGroup, h.carries, h.free⟩

lemma addSection (h : a.Coherent) : (a.addSection s).1.Coherent := by
  refine ⟨?_, h.numbered, ?_, ?_⟩
  · intro g i
    rw [groupOf_addSection]
    exact h.lists g i
  · intro i r hr g hg
    rcases sections_addSection hr with hr | ⟨ungrouped, _⟩
    · exact h.carries hr g hg
    · rw [ungrouped] at hg
      cases hg
  · intro i r hr hg
    rcases sections_addSection hr with hr | ⟨_, zero⟩
    · exact h.free hr hg
    · exact zero

/-- A section that is assigned is listed by the group that it joins, and no longer by the one that
it left. -/
lemma assignGroup (h : a.Coherent) (hb : a.assignGroup i g = .ok b) : b.Coherent := by
  have numbered := h.numbered.assignGroup hb
  obtain ⟨group, s, hg, hs, rfl⟩ := assignGroup_eq_ok hb
  have left : (a.leaving i s.group).sections = a.sections := sections_leaving
  have hi : a.groupOf i = s.group := by
    rw [groupOf, hs]
    rfl
  refine ⟨?_, numbered, ?_, ?_⟩
  · intro k j
    have there : (a.leaving i s.group).groups[g]? = some _ :=
      groups_leaving.trans (congrArg (Option.map _) hg)
    have same : (a.leaving i s.group).groupOf j = a.groupOf j := by
      rw [groupOf, left, groupOf]
    rw [lists_joining there, lists_leaving, h.lists, groupOf_joining (left ▸ hs), same]
    by_cases e : i = j
    · subst e
      simp [hi]
    · have e' : j ≠ i := fun h => e h.symm
      simp [e, e']
  · intro j r hr k hk
    rw [joining, sections_modifySection, modifyGroup, left] at hr
    obtain ⟨r, old, rfl⟩ := Option.map_eq_some_iff.mp hr
    by_cases e : i = j
    · simp only [e, if_true, Option.some_inj] at hk ⊢
      rw [← hk]
      exact h.numbered hg
    · simp only [e, if_false] at hk ⊢
      exact h.carries old k hk
  · intro j r hr hk
    rw [joining, sections_modifySection, modifyGroup, left] at hr
    obtain ⟨r, old, rfl⟩ := Option.map_eq_some_iff.mp hr
    by_cases e : i = j
    · simp only [e, if_true] at hk
      cases hk
    · simp only [e, if_false] at hk ⊢
      exact h.free old hk

/-- A merge gives the members of one list to another. -/
lemma merged (h : a.Coherent) (hne : into ≠ source) (m : a.Merged b into source) : b.Coherent := by
  have belongs : ∀ i, b.groupOf i = (a.groupOf i).map (renamed into source) :=
    fun i => m.groupOf h.lists
  obtain ⟨target, emptied, ht, he, sections, _⟩ := m.records
  have moved : ∀ {i : SectionId} {r}, a.sections[i]? = some r →
      (i ∈ emptied.members ↔ r.group = some source) := fun hr => Merged.mem_emptied h.lists he hr
  refine ⟨?_, m.numbered h.numbered, ?_, ?_⟩
  · intro k i
    rw [m.lists, h.lists, h.lists, h.lists, belongs, Option.map_eq_some_iff]
    constructor
    · rintro (⟨rfl, hi | hi⟩ | ⟨_, second, hi⟩)
      · exact ⟨into, hi, if_neg hne⟩
      · exact ⟨source, hi, if_pos rfl⟩
      · exact ⟨k, hi, if_neg second.symm⟩
    · rintro ⟨g, hi, e⟩
      unfold renamed at e
      split at e
      · rename_i second
        exact .inl ⟨e, .inr (second ▸ hi)⟩
      · rename_i second
        subst e
        by_cases first : into = g
        · exact .inl ⟨first, .inl (first ▸ hi)⟩
        · exact .inr ⟨first, fun e => second e.symm, hi⟩
  · intro i r' hr' g hg
    rw [sections] at hr'
    obtain ⟨r, hr, rfl⟩ := Option.map_eq_some_iff.mp hr'
    split at hg
    · rename_i there
      cases hg
      rw [if_pos there]
      exact h.numbered ht
    · rename_i there
      rw [if_neg there]
      exact h.carries hr g hg
  · intro i r' hr' hg
    rw [sections] at hr'
    obtain ⟨r, hr, rfl⟩ := Option.map_eq_some_iff.mp hr'
    split at hg
    · cases hg
    · rename_i there
      rw [if_neg there]
      exact h.free hr hg

lemma mergeGroups (h : a.Coherent) (hb : a.mergeGroups into source = .ok b) : b.Coherent := by
  rcases mergeGroups_eq_ok hb with ⟨_, rfl⟩ | ⟨hne, m⟩
  · exact h
  · exact h.merged hne m

lemma addSectionTo (h : a.Coherent) : (a.addSectionTo s g).1.Coherent := by
  unfold Arena.addSectionTo
  dsimp only
  split
  · rename_i assigned
    exact h.addSection.assignGroup assigned
  · exact h.addSection

/-- No section of a coherent arena names a group that does not exist. -/
lemma not_lost (h : a.Coherent) (i : SectionId) (g k : GroupId) :
    a.assignGroup i g ≠ .error (.lostGroup k) := by
  intro lost
  rcases assignGroup_cases a i g with ⟨_, _, _, _, hb⟩ | ⟨f, hf⟩ | ⟨s, m, hs, hm, out, _⟩
  · rw [lost] at hb
    cases hb
  · rw [lost] at hf
    cases hf
  · obtain ⟨group, hgroup, _⟩ := (h.lists m i).mpr (groupOf_eq_some.mpr ⟨s, hs, hm⟩)
    exact absurd (List.getElem?_eq_some_iff.mp hgroup).1 (Nat.not_lt.mpr out)

end Coherent

/-! ## Whatever the operations were -/

/-- An operation on an arena. -/
inductive Operation where
  | addGroup
  | addSection (s : Section)
  | addSectionTo (s : Section) (g : GroupId)
  | assignGroup (i : SectionId) (g : GroupId)
  | mergeGroups (into source : GroupId)
  | acquire (i : SectionId) (key : LockKey)
  | replaceLockset (i : SectionId) (lockset : List LockKey)
  | locks (op : LockTable.Operation)

/-- The arena after an operation. One that fails leaves the arena as it is, but for a section that
was added before its group was not found. -/
def perform (a : Arena) : Operation → Arena
  | .addGroup => a.addGroup.1
  | .addSection s => (a.addSection s).1
  | .addSectionTo s g => (a.addSectionTo s g).1
  | .assignGroup i g => (a.assignGroup i g).toOption.getD a
  | .mergeGroups into source => (a.mergeGroups into source).toOption.getD a
  | .acquire i key => ((a.acquire i key).map Prod.fst).toOption.getD a
  | .replaceLockset i lockset => (a.replaceLockset i lockset).toOption.getD a
  | .locks op => { a with locks := a.locks.perform op }

/-- The arena after operations from the empty one on. -/
def after (ops : List Operation) : Arena := ops.foldl perform .empty

/-- What holds where an operation that fails changes nothing holds if it does where the operation
goes through. -/
lemma getD_induction {ε : Type} {P : Arena → Prop} {x : Except ε Arena} (ha : P a)
    (hx : ∀ b, x = .ok b → P b) : P (x.toOption.getD a) := by
  cases x with
  | error e => exact ha
  | ok b => exact hx b rfl

lemma getD_fst_induction {α ε : Type} {P : Arena → Prop} {x : Except ε (Arena × α)} (ha : P a)
    (hx : ∀ b y, x = .ok (b, y) → P b) : P ((x.map Prod.fst).toOption.getD a) := by
  cases x with
  | error e => exact ha
  | ok r => exact hx r.1 r.2 rfl

/-- Every operation keeps an arena coherent, whether it fails or not. -/
lemma Coherent.perform (h : a.Coherent) (op : Operation) : (a.perform op).Coherent := by
  cases op with
  | addGroup => exact h.addGroup
  | addSection s => exact h.addSection
  | addSectionTo s g => exact h.addSectionTo
  | assignGroup i g => exact getD_induction h fun b hb => h.assignGroup hb
  | mergeGroups into source => exact getD_induction h fun b hb => h.mergeGroups hb
  | acquire i key => exact getD_fst_induction h fun b added hb => h.acquire hb
  | replaceLockset i lockset => exact getD_induction h fun b hb => h.replaceLockset hb
  | locks op => exact ⟨h.lists, h.numbered, h.carries, h.free⟩

lemma coherent_after (ops : List Operation) : (after ops).Coherent := by
  induction ops using List.reverseRecOn with
  | nil => exact coherent_empty
  | append_singleton ops op ih =>
    rw [after, List.foldl_append]
    exact ih.perform op

/-- What holds of an arena whatever the operations that led to it were. -/
structure Upheld (a : Arena) : Prop where
  coherent : a.Coherent
  /-- No section is in two groups. -/
  apart : ∀ ⦃g k i⦄, a.Lists g i → a.Lists k i → g = k
  /-- A merge loses no section: those of the second group are in the first, and all others where
  they were. -/
  merged : ∀ ⦃into source b⦄, a.mergeGroups into source = .ok b →
    ∀ i, b.groupOf i = (a.groupOf i).map (renamed into source)
  /-- The check fails for a key without a number only. -/
  checked : ∀ ⦃f⦄, a.validate = .error f →
    ∃ (i : SectionId) (s : Section) (key : LockKey), a.sections[i]? = some s ∧ key ∈ s.lockset ∧
      a.locks.find? key = none ∧ f = .unknownLock key.text
  /-- No section has to leave a group that does not exist. -/
  kept : ∀ i g k, a.assignGroup i g ≠ .error (.lostGroup k)

/-- The records of sections and groups agree after any operations, and so does what relies on
them. -/
theorem upheld_after (ops : List Operation) : (after ops).Upheld := by
  have h := coherent_after ops
  refine ⟨h, ?_, ?_, fun f => h.validate_eq_error, h.not_lost⟩
  · intro g k i hg hk
    have same := ((h.lists g i).mp hg).symm.trans ((h.lists k i).mp hk)
    exact Option.some.inj same
  · intro into source b hb i
    rcases mergeGroups_eq_ok hb with ⟨rfl, rfl⟩ | ⟨_, m⟩
    · have same : renamed into into = id := by
        funext g
        unfold renamed
        split
        · rename_i e
          exact e.symm
        · rfl
      rw [same, Option.map_id_fun, id]
    · exact m.groupOf h.lists

end Interlock.Arena
