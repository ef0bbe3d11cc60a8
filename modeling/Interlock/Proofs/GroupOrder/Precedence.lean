import Interlock.Proofs.Construction
import Interlock.Proofs.GroupOrder.Pass
import Interlock.Proofs.Validity

/-!
# Which group comes before which

`Arena.Precedes` is the relation on groups that a search decides about: some locked section of the
one may enter some locked section of the other. In a valid arena whose groups are numbered as the
operations number them, a pass goes over the pairs that make this relation (`exists_orderingPair`).
So an order of all pairs has the arcs of the relation (`Ordered.arc`), which then has no cycle
(`Ordered.acyclic`). A pass that ends with a conflict has met two groups that precede each other, by
way of others, or a second pair inside a group (`Met.eachOther`, `Met.again`).
-/

namespace Interlock

open Relation (TransGen ReflTransGen)

namespace Arena

variable {a b : Arena} {s t : SectionId} {g h : GroupId} {loops : Bool} {x y : LockedSection}
  {o : Digraph GroupId}

/-- The group of a section. -/
def groupOf (a : Arena) (t : SectionId) : Option GroupId := (a.sections[t]?).bind (·.group)

/-- The section takes a lock, and belongs to the group. -/
def LockedIn (a : Arena) (t : SectionId) (g : GroupId) : Prop :=
  ∃ s, a.sections[t]? = some s ∧ s.isLocked = true ∧ s.group = some g

/-- A locked section of the first group may enter a locked section of the second, which is
another. -/
def Precedes (a : Arena) (g h : GroupId) : Prop :=
  g ≠ h ∧ ∃ s t, a.LockedIn s g ∧ a.LockedIn t h ∧ a.mayEnter s t = true

lemma groupOf_eq_some : a.groupOf t = some g ↔ ∃ s, a.sections[t]? = some s ∧ s.group = some g :=
  Option.bind_eq_some_iff

/-- The group has the section on its list of members. -/
def Lists (a : Arena) (g : GroupId) (t : SectionId) : Prop :=
  ∃ group, a.groups[g]? = some group ∧ t ∈ group.members

/-- Groups list the sections that name them, and no others. -/
def ListsNamed (a : Arena) : Prop := ∀ g t, a.Lists g t ↔ a.groupOf t = some g

lemma Valid.listsNamed (valid : a.Valid) : a.ListsNamed := by
  intro g t
  rw [groupOf_eq_some]
  constructor
  · rintro ⟨group, hgroup, listed⟩
    exact (valid.groups hgroup).members t listed
  · rintro ⟨s, hs, hg⟩
    obtain ⟨group, hgroup, listed, _⟩ := (valid.sections hs).grouped g hg
    exact ⟨group, hgroup, listed⟩

/-- In a valid arena the sections of a group are locked. -/
lemma Valid.lockedIn_iff (valid : a.Valid) : a.LockedIn t g ↔ a.groupOf t = some g := by
  rw [groupOf_eq_some]
  constructor
  · rintro ⟨s, hs, _, hg⟩
    exact ⟨s, hs, hg⟩
  · rintro ⟨s, hs, hg⟩
    obtain ⟨group, hgroup, _, number⟩ := (valid.sections hs).grouped g hg
    refine ⟨s, hs, ?_, hg⟩
    rw [Section.isLocked, number, decide_eq_true_eq]
    exact (valid.groups hgroup).positive

lemma lockedIn_of_mem (hx : x ∈ a.lockedSections) : a.LockedIn x.id x.group := by
  obtain ⟨hs, hg, locked⟩ := mem_lockedSections.mp hx
  exact ⟨x.record, hs, locked, hg⟩

lemma LockedIn.exists_mem (h : a.LockedIn t g) :
    ∃ x ∈ a.lockedSections, x.id = t ∧ x.group = g := by
  obtain ⟨s, hs, locked, hg⟩ := h
  exact ⟨⟨t, s, g⟩, mem_lockedSections.mpr ⟨hs, hg, locked⟩, rfl, rfl⟩

/-- Locked sections enter each other as their records say. -/
lemma mayEnter_of_mem (hx : x ∈ a.lockedSections) (hy : y ∈ a.lockedSections) :
    a.mayEnter x.id y.id = x.record.enters y.record := by
  obtain ⟨hx, _⟩ := mem_lockedSections.mp hx
  obtain ⟨hy, _⟩ := mem_lockedSections.mp hy
  rw [mayEnter, hx, hy]

/-- Sections carry the same number only if they are of the same group. -/
lemma Valid.setNumber_eq_iff (valid : a.Valid) (numbered : a.Numbered) (hx : x ∈ a.lockedSections)
    (hy : y ∈ a.lockedSections) :
    x.record.setNumber = y.record.setNumber ↔ x.group = y.group := by
  obtain ⟨hx, gx, _⟩ := mem_lockedSections.mp hx
  obtain ⟨hy, gy, _⟩ := mem_lockedSections.mp hy
  obtain ⟨r, hr, _, nx⟩ := (valid.sections hx).grouped _ gx
  obtain ⟨r', hr', _, ny⟩ := (valid.sections hy).grouped _ gy
  rw [nx, ny]
  constructor
  · exact numbered.inj hr hr'
  · intro e
    rw [e, hr'] at hr
    rw [Option.some.inj hr]

/-- A pass goes over the pairs of locked sections of which the first may enter the second, and over
those of one group only if that is asked for. -/
theorem exists_orderingPair (valid : a.Valid) (numbered : a.Numbered) :
    (∃ p ∈ a.orderingPairs loops, (p.1.id = s ∧ p.2.id = t) ∧ p.1.group = g ∧ p.2.group = h) ↔
      (g ≠ h ∨ loops = true) ∧ a.LockedIn s g ∧ a.LockedIn t h ∧ a.mayEnter s t = true := by
  constructor
  · rintro ⟨⟨x, y⟩, hp, ⟨rfl, rfl⟩, rfl, rfl⟩
    obtain ⟨hx, hy, asked, enters⟩ := mem_orderingPairs.mp hp
    rw [ne_eq, valid.setNumber_eq_iff numbered hx hy] at asked
    exact ⟨asked, lockedIn_of_mem hx, lockedIn_of_mem hy, (mayEnter_of_mem hx hy).trans enters⟩
  · rintro ⟨asked, hs, ht, enters⟩
    obtain ⟨x, hx, rfl, rfl⟩ := hs.exists_mem
    obtain ⟨y, hy, rfl, rfl⟩ := ht.exists_mem
    rw [ne_eq, ← valid.setNumber_eq_iff numbered hx hy] at asked
    rw [mayEnter_of_mem hx hy] at enters
    exact ⟨(x, y), mem_orderingPairs.mpr ⟨hx, hy, asked, enters⟩, ⟨rfl, rfl⟩, rfl, rfl⟩

end Arena

namespace GroupSearch

variable {a : Arena} {config : Config} {loops : Bool} {g h : GroupId} {o : Digraph GroupId}
  {c : GroupConflict}

/-- An order of all pairs has an arc between two groups if the one precedes the other. -/
lemma Ordered.arc (ordered : Ordered (a.orderingPairs loops) o) (valid : a.Valid)
    (numbered : a.Numbered) (before : a.Precedes g h) : (g, h) ∈ o.arcs := by
  obtain ⟨hne, s, t, hs, ht, enters⟩ := before
  obtain ⟨p, hp, _, hg, hh⟩ :=
    (Arena.exists_orderingPair valid numbered).mpr ⟨.inl hne, hs, ht, enters⟩
  exact ordered.arcs.mpr ⟨p, hp, hg, hh⟩

/-- Where all pairs are ordered, no group precedes itself by way of others. -/
theorem Ordered.acyclic (ordered : Ordered (a.orderingPairs loops) o) (valid : a.Valid)
    (numbered : a.Numbered) : ¬ TransGen a.Precedes g g := by
  intro cycle
  obtain ⟨h, first, rest⟩ := TransGen.head'_iff.mp cycle
  have there : TransGen (fun x y => (x, y) ∈ o.arcs) g h :=
    .single (ordered.arc valid numbered first)
  have back : ReflTransGen (fun x y => (x, y) ∈ o.arcs) h g :=
    rest.lift id fun _ _ before => ordered.arc valid numbered before
  rcases Relation.reflTransGen_iff_eq_or_transGen.mp back with same | back
  · exact first.1 same
  · exact first.1 (ordered.antisymm there back)

/-- What a pass has met that ends with a conflict. -/
structure Met (a : Arena) (loops : Bool) (o : Digraph GroupId) (c : GroupConflict) : Prop where
  outer : a.LockedIn c.outer c.outerGroup
  inner : a.LockedIn c.inner c.innerGroup
  entered : a.mayEnter c.outer c.inner = true
  asked : c.outerGroup ≠ c.innerGroup ∨ loops = true
  /-- The arcs at hand lead from the end of the refused arc to its start. -/
  back : TransGen (fun x y => (x, y) ∈ o.arcs) c.innerGroup c.outerGroup
  antisymm : ∀ {x y}, TransGen (fun x y => (x, y) ∈ o.arcs) x y →
    TransGen (fun x y => (x, y) ∈ o.arcs) y x → x = y
  /-- Every arc has been made by a pair of sections before the one at hand. -/
  arcs : ∀ {x y}, (x, y) ∈ o.arcs → (x ≠ y ∨ loops = true) ∧
    ∃ s t, (s, t) ≠ (c.outer, c.inner) ∧ a.LockedIn s x ∧ a.LockedIn t y ∧ a.mayEnter s t = true

/-- A pass that ends with a conflict has met one. -/
theorem met_of_pass (valid : a.Valid) (numbered : a.Numbered) (h : pass a config = .error (o, c)) :
    Met a config.effectiveAllowSelfEdges o c := by
  obtain ⟨before, p, after, hpairs, ordered, rfl, back⟩ := pass_error h
  have sub : ∀ {q}, q ∈ before ++ p :: after →
      q ∈ a.orderingPairs config.effectiveAllowSelfEdges := by
    intro q hq
    rw [hpairs]
    exact hq
  have hp := sub (List.mem_append_right before List.mem_cons_self)
  obtain ⟨asked, outer, inner, entered⟩ :=
    (Arena.exists_orderingPair valid numbered).mp ⟨p, hp, ⟨rfl, rfl⟩, rfl, rfl⟩
  refine ⟨outer, inner, entered, asked, back, ordered.antisymm, ?_⟩
  intro x y arc
  obtain ⟨q, hq, rfl, rfl⟩ := ordered.arcs.mp arc
  have hq' := sub (List.mem_append_left _ hq)
  obtain ⟨asked', outer', inner', entered'⟩ :=
    (Arena.exists_orderingPair valid numbered).mp ⟨q, hq', ⟨rfl, rfl⟩, rfl, rfl⟩
  refine ⟨asked', q.1.id, q.2.id, ?_, outer', inner', entered'⟩
  -- a pair comes once, and sections are known by their numbers
  intro same
  obtain ⟨same1, same2⟩ := Prod.mk.inj same
  obtain ⟨p1, p2⟩ := p
  obtain ⟨q1, q2⟩ := q
  obtain ⟨hp1, hp2, _⟩ := Arena.mem_orderingPairs.mp hp
  obtain ⟨hq1, hq2, _⟩ := Arena.mem_orderingPairs.mp hq'
  obtain rfl := Arena.lockedSection_ext hq1 hp1 same1
  obtain rfl := Arena.lockedSection_ext hq2 hp2 same2
  have nodup : (a.orderingPairs config.effectiveAllowSelfEdges).Nodup := Arena.nodup_orderingPairs
  rw [hpairs] at nodup
  exact List.disjoint_of_nodup_append nodup hq List.mem_cons_self

namespace Met

lemma precedes (met : Met a loops o c) {x y : GroupId} (arc : (x, y) ∈ o.arcs) (hne : x ≠ y) :
    a.Precedes x y := by
  obtain ⟨_, s, t, _, hs, ht, enters⟩ := met.arcs arc
  exact ⟨hne, s, t, hs, ht, enters⟩

/-- The arcs at hand lead from group to group as precedence does. -/
lemma reflTransGen (met : Met a loops o c) {x y : GroupId}
    (path : ReflTransGen (fun x y => (x, y) ∈ o.arcs) x y) : ReflTransGen a.Precedes x y := by
  induction path with
  | refl => exact .refl
  | @tail u v _ arc ih =>
    by_cases same : u = v
    · rw [← same]
      exact ih
    · exact ih.tail (met.precedes arc same)

/-- A conflict between two groups is one of groups that precede each other. -/
lemma eachOther (met : Met a loops o c) (hne : c.outerGroup ≠ c.innerGroup) :
    a.Precedes c.outerGroup c.innerGroup ∧ ReflTransGen a.Precedes c.innerGroup c.outerGroup :=
  ⟨⟨hne, _, _, met.outer, met.inner, met.entered⟩, met.reflTransGen met.back.to_reflTransGen⟩

/-- A conflict inside a group comes after another pair inside it. -/
lemma again (met : Met a loops o c) (same : c.outerGroup = c.innerGroup) :
    ∃ s t, (s, t) ≠ (c.outer, c.inner) ∧ a.LockedIn s c.outerGroup ∧ a.LockedIn t c.outerGroup ∧
      a.mayEnter s t = true := by
  have back := met.back
  rw [← same] at back
  obtain ⟨z, first, rest⟩ := TransGen.head'_iff.mp back
  -- the first arc of the way back is one of the group to itself
  have loop : z = c.outerGroup := by
    rcases Relation.reflTransGen_iff_eq_or_transGen.mp rest with e | rest
    · exact e.symm
    · exact met.antisymm rest (.single first)
  rw [loop] at first
  exact (met.arcs first).2

end Met

end GroupSearch

end Interlock
