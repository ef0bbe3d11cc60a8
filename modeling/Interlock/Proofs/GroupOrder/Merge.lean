import Interlock.Proofs.GroupOrder.Precedence
import Mathlib.Data.Finset.Card

/-!
# Merges of groups

A merge gives the members of one group to another, so it renames a group (`Merged.groupOf`). The
arena stays valid (`Merged.valid`) and has one non-empty group less (`Merged.liveGroups`).

Where the two groups precede each other, by way of others or not (`Arena.Entangled`), a merge keeps
what leads to what: precedence afterwards is that of before with the group renamed
(`Merged.precedes_renamed`, `Merged.exists_precedes`). So the sections whose groups are entangled
are the same before and after (`Merged.coarsens`).
-/

namespace Interlock

open Relation (TransGen ReflTransGen)

/-- The count of the members of a list with a property, by their places. -/
lemma card_filter_places {α : Type} {p : α → Bool} {l : List α} :
    ((Finset.range l.length).filter fun i => (l[i]?).any p = true).card = l.countP p := by
  induction l using List.reverseRecOn with
  | nil => rfl
  | append_singleton l x ih =>
    have before : ((Finset.range l.length).filter fun i => ((l ++ [x])[i]?).any p = true) =
        (Finset.range l.length).filter fun i => (l[i]?).any p = true := by
      apply Finset.filter_congr
      intro i hi
      rw [List.getElem?_append_left (Finset.mem_range.mp hi)]
    rw [List.length_append, List.length_singleton, Finset.range_add_one, Finset.filter_insert,
      before, List.countP_append, List.countP_singleton, ← ih]
    have last : ((l ++ [x])[l.length]?).any p = p x := by simp
    rw [last]
    split
    · rw [Finset.card_insert_of_notMem (by simp)]
    · rfl

namespace Arena

variable {a b c : Arena} {s t u : SectionId} {g h into source : GroupId}

/-- The groups that have a member. -/
def liveGroups (a : Arena) : Finset GroupId :=
  (Finset.range a.groups.length).filter fun g => (a.groups[g]?).any (!·.members.isEmpty) = true

lemma card_liveGroups : a.liveGroups.card = a.liveGroupCount := card_filter_places

/-- In a valid arena a group has a member if some section names it. -/
lemma Valid.mem_liveGroups (valid : a.Valid) : g ∈ a.liveGroups ↔ ∃ t, a.groupOf t = some g := by
  have member : ∀ r : Group, (!r.members.isEmpty) = true ↔ ∃ t, t ∈ r.members := by
    intro r
    rw [Bool.not_eq_true', SortedSet.isEmpty, List.isEmpty_eq_false_iff_exists_mem]
    rfl
  rw [liveGroups, Finset.mem_filter, Finset.mem_range, Option.any_eq_true]
  simp only [member]
  constructor
  · rintro ⟨_, r, hr, t, ht⟩
    obtain ⟨s, hs, hg⟩ := (valid.groups hr).members t ht
    exact ⟨t, groupOf_eq_some.mpr ⟨s, hs, hg⟩⟩
  · rintro ⟨t, ht⟩
    obtain ⟨s, hs, hg⟩ := groupOf_eq_some.mp ht
    obtain ⟨r, hr, hmem, _⟩ := (valid.sections hs).grouped g hg
    exact ⟨(List.getElem?_eq_some_iff.mp hr).1, r, hr, t, hmem⟩

/-- The group that a group's members belong to after a merge. -/
def renamed (into source g : GroupId) : GroupId := if g = source then into else g

/-- Groups that are one after a merge. -/
lemma eq_of_renamed (e : renamed into source g = renamed into source h) :
    g = h ∨ (g = source ∧ h = into) ∨ (g = into ∧ h = source) := by
  unfold renamed at e
  split_ifs at e with hg hh hh
  · exact .inl (hg.trans hh.symm)
  · exact .inr (.inl ⟨hg, e.symm⟩)
  · exact .inr (.inr ⟨e, hh⟩)
  · exact .inl e

namespace Merged

/-- The members of the emptied group are its sections. -/
lemma mem_emptied (lists : a.ListsNamed) {emptied : Group} (he : a.groups[source]? = some emptied)
    {r : Section} (hr : a.sections[t]? = some r) : t ∈ emptied.members ↔ r.group = some source := by
  have named : a.groupOf t = r.group := by
    rw [Arena.groupOf, hr]
    rfl
  rw [← named, ← lists]
  constructor
  · exact fun ht => ⟨emptied, he, ht⟩
  · rintro ⟨group, hgroup, ht⟩
    rw [he] at hgroup
    cases hgroup
    exact ht

/-- A merge renames the group of a section. -/
lemma groupOf (m : a.Merged b into source) (lists : a.ListsNamed) :
    b.groupOf t = (a.groupOf t).map (renamed into source) := by
  obtain ⟨target, emptied, _, he, sections, _⟩ := m.records
  rw [Arena.groupOf, Arena.groupOf, sections]
  cases hr : a.sections[t]? with
  | none => rfl
  | some r =>
    simp only [Option.map_some, Option.bind_some, mem_emptied lists he hr]
    split
    · rename_i hg
      rw [hg]
      simp [renamed]
    · rename_i hne
      cases hg : r.group with
      | none => rfl
      | some g =>
        rw [hg, Option.some_inj] at hne
        simp [renamed, hne]

/-- What a section may enter does not change. -/
lemma mayEnter (m : a.Merged b into source) : b.mayEnter s t = a.mayEnter s t := by
  obtain ⟨target, emptied, _, _, sections, _⟩ := m.records
  unfold Arena.mayEnter
  rw [sections, sections]
  cases a.sections[s]? with
  | none => rfl
  | some x =>
    cases a.sections[t]? with
    | none => rfl
    | some y =>
      simp only [Option.map_some]
      split <;> split <;> rfl

lemma targetsKnown (m : a.Merged b into source) (known : a.TargetsKnown) : b.TargetsKnown := by
  obtain ⟨target, emptied, _, _, sections, _⟩ := m.records
  intro i r hr
  rw [sections] at hr
  obtain ⟨r', hr', rfl⟩ := Option.map_eq_some_iff.mp hr
  have there := known hr'
  split
  · exact there
  · exact there

/-- A section's record stays valid. -/
lemma validSection (m : a.Merged b into source) (valid : a.Valid) {r : Section}
    (hr : b.sections[t]? = some r) : b.ValidSection t r := by
  obtain ⟨target, emptied, ht, he, sections, groups⟩ := m.records
  rw [sections] at hr
  obtain ⟨s, hs, rfl⟩ := Option.map_eq_some_iff.mp hr
  have old := valid.sections hs
  by_cases moved : t ∈ emptied.members
  · rw [if_pos moved]
    refine ⟨?_, ?_, nofun⟩
    · rw [m.locks]
      exact old.keys
    · intro g hg
      cases hg
      refine ⟨{ target with members := target.members.union emptied.members }, ?_, ?_, rfl⟩
      · rw [groups, ht, Option.map_some, if_pos rfl]
      · exact SortedSet.mem_union.mpr (.inr moved)
  · rw [if_neg moved]
    refine ⟨?_, ?_, old.ungrouped⟩
    · rw [m.locks]
      exact old.keys
    · intro g hg
      obtain ⟨group, hgroup, hmem, number⟩ := old.grouped g hg
      have other : source ≠ g := by
        rintro rfl
        exact moved ((mem_emptied valid.listsNamed he hs).mpr hg)
      rw [groups, hgroup, Option.map_some, if_neg other]
      split
      · exact ⟨_, rfl, SortedSet.mem_union.mpr (.inl hmem), number⟩
      · exact ⟨_, rfl, hmem, number⟩

/-- A member of a group that is not emptied stays in it. -/
lemma member_stays (m : a.Merged b into source) (valid : a.Valid) {r : Group}
    (hr : a.groups[g]? = some r) (ht : t ∈ r.members) (other : source ≠ g) :
    ∃ s, b.sections[t]? = some s ∧ s.group = some g := by
  obtain ⟨target, emptied, _, he, sections, _⟩ := m.records
  obtain ⟨s, hs, hg⟩ := (valid.groups hr).members t ht
  have kept : ¬ t ∈ emptied.members := by
    rw [mem_emptied valid.listsNamed he hs, hg, Option.some_inj]
    exact other.symm
  exact ⟨s, by rw [sections, hs, Option.map_some, if_neg kept], hg⟩

/-- A group's record stays valid if the two groups are not the same. -/
lemma validGroup (m : a.Merged b into source) (valid : a.Valid) (hne : into ≠ source) {r : Group}
    (hr : b.groups[g]? = some r) : b.ValidGroup g r := by
  obtain ⟨target, emptied, _, he, sections, groups⟩ := m.records
  rw [groups] at hr
  obtain ⟨x, hx, rfl⟩ := Option.map_eq_some_iff.mp hr
  have old := valid.groups hx
  by_cases first : into = g
  · subst first
    rw [if_pos rfl]
    refine ⟨old.positive, ?_⟩
    intro t ht
    rcases SortedSet.mem_union.mp ht with ht | ht
    · exact m.member_stays valid hx ht hne.symm
    · obtain ⟨s, hs, _⟩ := (valid.groups he).members t ht
      refine ⟨{ s with group := some into, setNumber := target.number }, ?_, rfl⟩
      rw [sections, hs, Option.map_some, if_pos ht]
  · rw [if_neg first]
    by_cases second : source = g
    · rw [if_pos second]
      exact ⟨old.positive, fun t ht => absurd ht SortedSet.not_mem_empty⟩
    · rw [if_neg second]
      exact ⟨old.positive, fun t ht => m.member_stays valid hx ht second⟩

/-- A merge of two groups keeps an arena valid. -/
lemma valid (m : a.Merged b into source) (valid : a.Valid) (hne : into ≠ source) : b.Valid :=
  ⟨fun hr => m.validSection valid hr, fun hr => m.validGroup valid hne hr⟩

/-- A merge into a group that has a member leaves the other groups that have one. -/
lemma liveGroups (m : a.Merged b into source) (valid : a.Valid) (hne : into ≠ source)
    (live : into ∈ a.liveGroups) : b.liveGroups = a.liveGroups.erase source := by
  ext g
  rw [(m.valid valid hne).mem_liveGroups, Finset.mem_erase, valid.mem_liveGroups]
  simp only [m.groupOf valid.listsNamed, Option.map_eq_some_iff]
  constructor
  · rintro ⟨t, k, hk, rfl⟩
    unfold renamed
    split
    · exact ⟨hne, valid.mem_liveGroups.mp live⟩
    · rename_i other
      exact ⟨other, t, hk⟩
  · rintro ⟨other, t, ht⟩
    exact ⟨t, g, ht, if_neg other⟩

end Merged

/-- Two groups are the same or precede each other, by way of others or not. -/
def Entangled (a : Arena) (g h : GroupId) : Prop :=
  ReflTransGen a.Precedes g h ∧ ReflTransGen a.Precedes h g

lemma Entangled.symm (e : a.Entangled g h) : a.Entangled h g := ⟨e.2, e.1⟩

lemma Entangled.trans {k : GroupId} (e : a.Entangled g h) (e' : a.Entangled h k) :
    a.Entangled g k :=
  ⟨e.1.trans e'.1, e'.2.trans e.2⟩

lemma entangled_iff : a.Entangled g h ↔ g = h ∨
    (TransGen a.Precedes g h ∧ TransGen a.Precedes h g) := by
  unfold Entangled
  simp only [Relation.reflTransGen_iff_eq_or_transGen]
  constructor
  · rintro ⟨same | there, same' | back⟩
    · exact .inl same.symm
    · exact .inl same.symm
    · exact .inl same'
    · exact .inr ⟨there, back⟩
  · rintro (rfl | ⟨there, back⟩)
    · exact ⟨.inl rfl, .inl rfl⟩
    · exact ⟨.inr there, .inr back⟩

/-- The groups of two sections are entangled. -/
def Linked (a : Arena) (t u : SectionId) : Prop :=
  ∃ g h, a.groupOf t = some g ∧ a.groupOf u = some h ∧ a.Entangled g h

/-- The second arena has the grouped sections of the first, and the same of them are linked. -/
structure Coarsens (a b : Arena) : Prop where
  grouped : ∀ t, (b.groupOf t).isSome = (a.groupOf t).isSome
  linked : ∀ {t u}, b.Linked t u ↔ a.Linked t u

lemma Coarsens.refl (a : Arena) : Coarsens a a := ⟨fun _ => rfl, Iff.rfl⟩

lemma Coarsens.trans (h : Coarsens a b) (k : Coarsens b c) : Coarsens a c :=
  ⟨fun t => (k.grouped t).trans (h.grouped t), k.linked.trans h.linked⟩

namespace Merged

/-- Where one group precedes another, their new groups are the same or do so too. -/
lemma precedes_renamed (m : a.Merged b into source) (valid : a.Valid) (valid' : b.Valid)
    (before : a.Precedes g h) :
    renamed into source g = renamed into source h ∨
      b.Precedes (renamed into source g) (renamed into source h) := by
  obtain ⟨_, s, t, hs, ht, enters⟩ := before
  rw [valid.lockedIn_iff] at hs ht
  by_cases same : renamed into source g = renamed into source h
  · exact .inl same
  · refine .inr ⟨same, s, t, ?_, ?_, m.mayEnter.trans enters⟩
    · rw [valid'.lockedIn_iff, m.groupOf valid.listsNamed, hs, Option.map_some]
    · rw [valid'.lockedIn_iff, m.groupOf valid.listsNamed, ht, Option.map_some]

/-- Groups that precede each other after a merge come from groups that did so before. -/
lemma exists_precedes (m : a.Merged b into source) (valid : a.Valid) (valid' : b.Valid)
    (before : b.Precedes g h) : ∃ g0 h0, renamed into source g0 = g ∧ renamed into source h0 = h ∧
      a.Precedes g0 h0 := by
  obtain ⟨hne, s, t, hs, ht, enters⟩ := before
  rw [valid'.lockedIn_iff, m.groupOf valid.listsNamed] at hs ht
  obtain ⟨g0, hs0, rfl⟩ := Option.map_eq_some_iff.mp hs
  obtain ⟨h0, ht0, rfl⟩ := Option.map_eq_some_iff.mp ht
  refine ⟨g0, h0, rfl, rfl, ?_, s, t, valid.lockedIn_iff.mpr hs0, valid.lockedIn_iff.mpr ht0,
    m.mayEnter.symm.trans enters⟩
  rintro rfl
  exact hne rfl

/-- A merge of entangled groups keeps what leads to what. -/
lemma reflTransGen_iff (m : a.Merged b into source) (valid : a.Valid) (valid' : b.Valid)
    (both : a.Entangled into source) :
    ReflTransGen b.Precedes (renamed into source g) (renamed into source h) ↔
      ReflTransGen a.Precedes g h := by
  -- groups that become one led to each other
  have one : ∀ {x y}, renamed into source x = renamed into source y →
      ReflTransGen a.Precedes x y := by
    intro x y e
    rcases eq_of_renamed e with rfl | ⟨rfl, rfl⟩ | ⟨rfl, rfl⟩
    · exact .refl
    · exact both.2
    · exact both.1
  constructor
  · intro path
    have came : ∀ {k}, ReflTransGen b.Precedes (renamed into source g) k →
        ∀ h, renamed into source h = k → ReflTransGen a.Precedes g h := by
      intro k path
      induction path with
      | refl => exact fun h e => one e.symm
      | tail _ step ih =>
        obtain ⟨x, y, hx, hy, before⟩ := m.exists_precedes valid valid' step
        intro h e
        exact ((ih x hx).tail before).trans (one (hy.trans e.symm))
    exact came path h rfl
  · intro path
    induction path with
    | refl => exact .refl
    | tail _ step ih =>
      rcases m.precedes_renamed valid valid' step with same | before
      · rw [← same]
        exact ih
      · exact ih.tail before

/-- A merge of entangled groups keeps which groups are entangled. -/
lemma entangled_iff (m : a.Merged b into source) (valid : a.Valid) (valid' : b.Valid)
    (both : a.Entangled into source) :
    b.Entangled (renamed into source g) (renamed into source h) ↔ a.Entangled g h :=
  and_congr (m.reflTransGen_iff valid valid' both) (m.reflTransGen_iff valid valid' both)

/-- A merge of entangled groups links no sections that were not linked before, and keeps those that
were. -/
theorem coarsens (m : a.Merged b into source) (valid : a.Valid) (valid' : b.Valid)
    (both : a.Entangled into source) : a.Coarsens b := by
  constructor
  · intro t
    rw [m.groupOf valid.listsNamed, Option.isSome_map]
  · intro t u
    unfold Linked
    simp only [m.groupOf valid.listsNamed, Option.map_eq_some_iff]
    constructor
    · rintro ⟨_, _, ⟨g, hg, rfl⟩, ⟨h, hh, rfl⟩, e⟩
      exact ⟨g, h, hg, hh, (m.entangled_iff valid valid' both).mp e⟩
    · rintro ⟨g, h, hg, hh, e⟩
      exact ⟨_, _, ⟨g, hg, rfl⟩, ⟨h, hh, rfl⟩, (m.entangled_iff valid valid' both).mpr e⟩

end Merged

end Arena

end Interlock
