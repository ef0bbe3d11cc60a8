import Interlock.GroupOrder
import Interlock.Proofs.Arena
import Interlock.Proofs.Reach
import Mathlib.Data.List.Nodup

/-!
# One pass over pairs of sections

A pass takes on an arc for each pair of locked sections of which the first may enter the second, and
asks before each whether its end already reaches its start. An arc that is not refused leaves an
order where no two groups lead to each other (`Growing.Sound.taking`), so a pass without a conflict
ends with such an order of all its pairs, and has taken one pair of sections inside each group at
most (`pass_ok`). A pass that meets a conflict has taken on the pairs before it, which lead from the
end of the refused arc to its start (`pass_error`).
-/

namespace Interlock

open Relation (TransGen)

namespace Arena

variable {a : Arena} {loops : Bool} {x y : LockedSection}

lemma mem_lockedSections :
    x ∈ a.lockedSections ↔ a.sections[x.id]? = some x.record ∧ x.record.group = some x.group ∧
      x.record.isLocked = true := by
  simp only [lockedSections, List.mem_filterMap]
  constructor
  · rintro ⟨⟨s, i⟩, hmem, h⟩
    rw [List.mk_mem_zipIdx_iff_getElem?] at hmem
    dsimp only at h
    split at h
    · rename_i g hg
      split at h
      · rename_i locked
        cases h
        exact ⟨hmem, hg, locked⟩
      · cases h
    · cases h
  · rintro ⟨hs, hg, locked⟩
    refine ⟨(x.record, x.id), List.mk_mem_zipIdx_iff_getElem?.mpr hs, ?_⟩
    simp [hg, locked]

/-- A locked section is known by its number. -/
lemma lockedSection_ext (hx : x ∈ a.lockedSections) (hy : y ∈ a.lockedSections) (e : x.id = y.id) :
    x = y := by
  obtain ⟨hs, hg, _⟩ := mem_lockedSections.mp hx
  obtain ⟨hs', hg', _⟩ := mem_lockedSections.mp hy
  rw [e, hs'] at hs
  have record : x.record = y.record := (Option.some.inj hs).symm
  rw [record, hg'] at hg
  have group : x.group = y.group := (Option.some.inj hg).symm
  cases x
  cases y
  simp_all

lemma nodup_lockedSections : a.lockedSections.Nodup := by
  have places : (a.sections.zipIdx.map (·.2)).Nodup := by
    rw [List.zipIdx_map_snd]
    exact List.nodup_range'
  refine (List.Nodup.of_map _ places).filterMap ?_
  rintro ⟨s, i⟩ ⟨s', i'⟩ x hx hx'
  dsimp only at hx hx'
  split at hx
  · split at hx
    · split at hx'
      · split at hx'
        · simp only [Option.mem_def, Option.some.injEq] at hx hx'
          subst hx
          injection hx' with id record _
          rw [id, record]
        · cases hx'
      · cases hx'
    · cases hx
  · cases hx

/-- The pairs that order groups. -/
lemma mem_orderingPairs :
    (x, y) ∈ a.orderingPairs loops ↔ x ∈ a.lockedSections ∧ y ∈ a.lockedSections ∧
      (x.record.setNumber ≠ y.record.setNumber ∨ loops = true) ∧
      x.record.enters y.record = true := by
  simp only [orderingPairs, List.mem_flatMap, List.mem_map, List.mem_filter, Bool.and_eq_true,
    Bool.or_eq_true, bne_iff_ne, Prod.mk.injEq]
  constructor
  · rintro ⟨outer, ho, inner, ⟨hi, hne, he⟩, rfl, rfl⟩
    exact ⟨ho, hi, hne, he⟩
  · rintro ⟨ho, hi, hne, he⟩
    exact ⟨x, ho, y, ⟨hi, hne, he⟩, rfl, rfl⟩

/-- No pair comes twice. -/
lemma nodup_orderingPairs : (a.orderingPairs loops).Nodup := by
  refine List.nodup_flatMap.mpr ⟨?_, ?_⟩
  · intro outer _
    refine (nodup_lockedSections.filter _).map ?_
    intro u v e
    exact (Prod.mk.inj e).2
  · refine nodup_lockedSections.imp ?_
    intro u v hne pair hu hv
    obtain ⟨_, _, rfl⟩ := List.mem_map.mp hu
    obtain ⟨_, _, e⟩ := List.mem_map.mp hv
    exact hne (Prod.mk.inj e).1.symm

end Arena

namespace GroupSearch

variable {a : Arena} {config : Config} {g g' : Growing} {p q : LockedSection × LockedSection}
  {ps : List (LockedSection × LockedSection)} {o : Digraph GroupId} {c : GroupConflict}
  {e : Digraph GroupId × GroupConflict} {x y : GroupId}

/-- The order with the arc of a pair. -/
def Growing.taking (g : Growing) (p : LockedSection × LockedSection) : Growing where
  order := g.order.addArc p.1.group p.2.group
  reach := g.reach.insert p.1.group p.2.group

/-- The conflict of a pair. -/
def conflictOf (p : LockedSection × LockedSection) : GroupConflict where
  outer := p.1.id
  inner := p.2.id
  outerGroup := p.1.group
  innerGroup := p.2.group

lemma takePair_eq : takePair g p =
    if g.reach.reaches p.2.group p.1.group then .error (g.order, conflictOf p)
    else .ok (g.taking p) :=
  rfl

/-- A pair that passes was not refused, and is taken on. -/
lemma takePair_ok (h : takePair g p = .ok g') :
    ¬ g.reach.reaches p.2.group p.1.group = true ∧ g' = g.taking p := by
  rw [takePair_eq] at h
  split at h
  · cases h
  · rename_i free
    cases h
    exact ⟨free, rfl⟩

/-- A pair that ends the pass was refused, and the order is the one at hand. -/
lemma takePair_error (h : takePair g p = .error e) :
    g.reach.reaches p.2.group p.1.group = true ∧ e = (g.order, conflictOf p) := by
  rw [takePair_eq] at h
  split at h
  · rename_i closed
    cases h
    exact ⟨closed, rfl⟩
  · cases h

/-- Reachability is that of the order, and no two groups lead to each other. -/
structure Growing.Sound (g : Growing) : Prop where
  exact : g.reach.Exact fun x y => (x, y) ∈ g.order.arcs
  antisymm : ∀ {x y}, TransGen (fun x y => (x, y) ∈ g.order.arcs) x y →
    TransGen (fun x y => (x, y) ∈ g.order.arcs) y x → x = y

/-- What lies between the end and the start of an arc that is not refused is the arc's one node. -/
lemma eq_of_between {R : GroupId → GroupId → Prop} {s t : GroupId} (hn : ¬ TransGen R t s)
    (after : y = t ∨ TransGen R t y) (before : y = s ∨ TransGen R y s) : y = s := by
  rcases before with rfl | before
  · rfl
  · rcases after with rfl | after
    · exact absurd before hn
    · exact absurd (after.trans before) hn

/-- An arc that is not refused leaves no two groups that lead to each other. -/
lemma Growing.Sound.taking (h : g.Sound) (hn : ¬ g.reach.reaches p.2.group p.1.group = true) :
    (g.taking p).Sound := by
  have arcs : (fun x y => (x, y) ∈ (g.taking p).order.arcs) =
      WithArc (fun x y => (x, y) ∈ g.order.arcs) p.1.group p.2.group := by
    funext x y
    exact propext Digraph.mem_arcs_addArc
  rw [h.exact] at hn
  constructor
  · rw [arcs]
    exact h.exact.insert
  · intro x y hxy hyx
    rw [arcs, transGen_withArc] at hxy hyx
    rcases hxy with hxy | ⟨hxs, hty⟩
    · rcases hyx with hyx | ⟨hys, htx⟩
      · exact h.antisymm hxy hyx
      · -- the end of the new arc leads to its start by way of `x` and `y`
        have hty : TransGen (fun x y => (x, y) ∈ g.order.arcs) p.2.group y := by
          rcases htx with rfl | htx
          · exact hxy
          · exact htx.trans hxy
        rcases hys with rfl | hys
        · exact absurd hty hn
        · exact absurd (hty.trans hys) hn
    · rcases hyx with hyx | ⟨hys, htx⟩
      · have htx : TransGen (fun x y => (x, y) ∈ g.order.arcs) p.2.group x := by
          rcases hty with rfl | hty
          · exact hyx
          · exact hty.trans hyx
        rcases hxs with rfl | hxs
        · exact absurd htx hn
        · exact absurd (htx.trans hxs) hn
      · rw [eq_of_between hn htx hxs, eq_of_between hn hty hys]

/-- Pairs that are all taken on leave the order sound. -/
lemma takeAll_sound (hs : g.Sound) (h : ps.foldlM takePair g = .ok g') : g'.Sound := by
  induction ps generalizing g with
  | nil =>
    cases h
    exact hs
  | cons p rest ih =>
    rw [List.foldlM_cons] at h
    obtain ⟨g1, h1, h⟩ := bind_eq_ok.mp h
    obtain ⟨hn, rfl⟩ := takePair_ok h1
    exact ih (hs.taking hn) h

/-- Pairs that are all taken on add their arcs and nothing else. -/
lemma takeAll_arcs (h : ps.foldlM takePair g = .ok g') :
    (x, y) ∈ g'.order.arcs ↔
      (x, y) ∈ g.order.arcs ∨ ∃ p ∈ ps, p.1.group = x ∧ p.2.group = y := by
  induction ps generalizing g with
  | nil =>
    cases h
    simp
  | cons p rest ih =>
    rw [List.foldlM_cons] at h
    obtain ⟨g1, h1, h⟩ := bind_eq_ok.mp h
    obtain ⟨_, rfl⟩ := takePair_ok h1
    rw [ih h, Growing.taking, Digraph.mem_arcs_addArc]
    simp only [List.mem_cons, exists_eq_or_imp, eq_comm (a := x), eq_comm (a := y)]
    tauto

/-- A pair of a group that has an arc to itself is refused. -/
lemma takeAll_loop (hs : g.Sound) (loop : (x, x) ∈ g.order.arcs) (h : ps.foldlM takePair g = .ok g')
    (hp : p ∈ ps) : ¬ (p.1.group = x ∧ p.2.group = x) := by
  rintro ⟨h1, h2⟩
  obtain ⟨before, after, rfl⟩ := List.append_of_mem hp
  rw [List.foldlM_append] at h
  obtain ⟨g1, hg1, h⟩ := bind_eq_ok.mp h
  rw [List.foldlM_cons] at h
  obtain ⟨g2, hg2, _⟩ := bind_eq_ok.mp h
  obtain ⟨free, _⟩ := takePair_ok hg2
  rw [h1, h2, (takeAll_sound hs hg1).exact] at free
  exact free (.single ((takeAll_arcs hg1).mpr (.inl loop)))

/-- Of the pairs inside one group a second one is refused. -/
lemma takeAll_once (hs : g.Sound) (h : ps.foldlM takePair g = .ok g') (hp : p ∈ ps) (hq : q ∈ ps)
    (insideP : p.1.group = x ∧ p.2.group = x)
    (insideQ : q.1.group = x ∧ q.2.group = x) : p = q := by
  induction ps generalizing g with
  | nil => cases hp
  | cons r rest ih =>
    rw [List.foldlM_cons] at h
    obtain ⟨g1, h1, h⟩ := bind_eq_ok.mp h
    obtain ⟨hn, rfl⟩ := takePair_ok h1
    have loop : r.1.group = x ∧ r.2.group = x → (x, x) ∈ (g.taking r).order.arcs := fun inside =>
      Digraph.mem_arcs_addArc.mpr (.inl ⟨inside.1.symm, inside.2.symm⟩)
    rcases List.mem_cons.mp hp with rfl | restP
    · rcases List.mem_cons.mp hq with rfl | restQ
      · rfl
      · exact absurd insideQ (takeAll_loop (hs.taking hn) (loop insideP) h restQ)
    · rcases List.mem_cons.mp hq with rfl | restQ
      · exact absurd insideP (takeAll_loop (hs.taking hn) (loop insideQ) h restP)
      · exact ih (hs.taking hn) h restP restQ

/-- The order is that of some pairs, and no two groups lead to each other. -/
structure Ordered (pairs : List (LockedSection × LockedSection)) (o : Digraph GroupId) : Prop where
  arcs : ∀ {x y}, (x, y) ∈ o.arcs ↔ ∃ p ∈ pairs, p.1.group = x ∧ p.2.group = y
  antisymm : ∀ {x y}, TransGen (fun x y => (x, y) ∈ o.arcs) x y →
    TransGen (fun x y => (x, y) ∈ o.arcs) y x → x = y

/-- What a pass starts from. -/
def passStart (a : Arena) (config : Config) : Growing where
  order := (a.lockedSections.map (·.group)).foldl Digraph.addNode .empty
  reach := .empty config.reachability

lemma arcs_passStart : (x, y) ∉ (passStart a config).order.arcs := by
  rw [passStart, Digraph.arcs_addNodes]
  exact Digraph.not_mem_arcs_empty

lemma sound_passStart : (passStart a config).Sound := by
  have arcs : (fun x y => (x, y) ∈ (passStart a config).order.arcs) = fun _ _ => False := by
    funext x y
    exact propext ⟨arcs_passStart, False.elim⟩
  constructor
  · rw [arcs]
    exact Reach.exact_empty
  · intro x y h
    rw [arcs] at h
    obtain ⟨_, h, _⟩ := TransGen.head'_iff.mp h
    exact h.elim

/-- Pairs that are all taken on from the start are ordered. -/
lemma ordered_of_takeAll (h : ps.foldlM takePair (passStart a config) = .ok g) :
    Ordered ps g.order := by
  refine ⟨fun {x y} => ?_, (takeAll_sound sound_passStart h).antisymm⟩
  rw [takeAll_arcs h, or_iff_right arcs_passStart]

/-- A pass without a conflict orders all its pairs, and has taken one pair inside each group at
most. -/
theorem pass_ok (h : pass a config = .ok o) :
    Ordered (a.orderingPairs config.effectiveAllowSelfEdges) o ∧
      ∀ {p q x}, p ∈ a.orderingPairs config.effectiveAllowSelfEdges →
        q ∈ a.orderingPairs config.effectiveAllowSelfEdges → p.1.group = x ∧ p.2.group = x →
          q.1.group = x ∧ q.2.group = x → p = q := by
  obtain ⟨g, hg, h⟩ := bind_eq_ok.mp h
  cases h
  exact ⟨ordered_of_takeAll hg, fun hp hq => takeAll_once sound_passStart hg hp hq⟩

/-- A pass that meets a conflict has ordered the pairs before it, and these lead back. -/
theorem pass_error (h : pass a config = .error (o, c)) :
    ∃ before p after, a.orderingPairs config.effectiveAllowSelfEdges = before ++ p :: after ∧
      Ordered before o ∧ c = conflictOf p ∧
      TransGen (fun x y => (x, y) ∈ o.arcs) p.2.group p.1.group := by
  have fold : (a.orderingPairs config.effectiveAllowSelfEdges).foldlM takePair
      (passStart a config) = .error (o, c) := by
    cases hf : (a.orderingPairs config.effectiveAllowSelfEdges).foldlM takePair
        (passStart a config) with
    | error e =>
      have same : pass a config = .error e := by
        unfold pass
        exact congrArg (fun r => r >>= fun grown => pure grown.order) hf
      rw [h] at same
      rw [Except.error.inj same]
    | ok g =>
      have same : pass a config = .ok g.order := bind_eq_ok.mpr ⟨g, hf, rfl⟩
      rw [h] at same
      cases same
  obtain ⟨before, p, after, g, hl, hg, he⟩ := foldlM_eq_error fold
  obtain ⟨closed, e⟩ := takePair_error he
  obtain ⟨rfl, rfl⟩ := Prod.mk.inj e
  exact ⟨before, p, after, hl, ordered_of_takeAll hg, rfl,
    ((takeAll_sound sound_passStart hg).exact _ _).mp closed⟩

end GroupSearch

end Interlock
