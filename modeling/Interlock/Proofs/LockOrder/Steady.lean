import Interlock.Proofs.LockOrder.Newest

/-!
# Plans that leave a lockset alone

A plan leaves a lockset alone exactly if each lock is in place with respect to every lock before it
(`LockPlan.positions_eq_range_iff`): either the two are in one cluster and the later does not
precede the earlier, or the cluster of the earlier one is scheduled first.

A lockset that one plan has put in order is then put in order by another one, which sees less. The
two views may differ in what leads away from some locks at the front (`Fronted`): these are the
smallest, and arcs lead to them from smaller ones only. Both plans join the same locks, and both
schedule the clusters alike, since a schedule takes from ascending leaders those at the front first
in either case (`schedule_congr_front`).
-/

namespace Interlock

open Relation (TransGen)

/-- Two views differ only in what leads away from locks at the front, where all arcs go from a
smaller lock to a larger one. -/
structure Fronted (front : LockNum → Prop) (R S : LockNum → LockNum → Prop) : Prop where
  left : ∀ {x y}, front y → R x y → front x ∧ x < y
  right : ∀ {x y}, front y → S x y → front x ∧ x < y
  same : ∀ {x y}, ¬ front x → (R x y ↔ S x y)

section Fronted

variable {front : LockNum → Prop} {R S : LockNum → LockNum → Prop} {x y : LockNum}

lemma Fronted.symm (h : Fronted front R S) : Fronted front S R :=
  ⟨h.right, h.left, fun hx => (h.same hx).symm⟩

/-- What leads to a lock at the front is a smaller lock at the front. -/
lemma Fronted.lt_of_leads (h : Fronted front R S) (hy : front y) (hxy : TransGen R x y) :
    front x ∧ x < y := by
  induction hxy using TransGen.head_induction_on with
  | single hxy => exact h.left hy hxy
  | head hxz _ ih =>
    obtain ⟨hz, less⟩ := ih
    obtain ⟨hx, less'⟩ := h.left hz hxz
    exact ⟨hx, lt_trans less' less⟩

/-- From a lock that is not at the front one view leads where the other does. -/
lemma Fronted.leads (h : Fronted front R S) (hx : ¬ front x) (hxy : TransGen R x y) :
    TransGen S x y := by
  induction hxy using TransGen.head_induction_on with
  | single hxy => exact .single ((h.same hx).mp hxy)
  | head hxz _ ih => exact .head ((h.same hx).mp hxz) (ih fun hz => hx (h.left hz hxz).1)

lemma Fronted.leads_iff (h : Fronted front R S) (hx : ¬ front x) :
    TransGen R x y ↔ TransGen S x y :=
  ⟨h.leads hx, h.symm.leads hx⟩

/-- Both views join the same locks: no cycle goes through the front. -/
lemma Fronted.joined_iff (h : Fronted front R S) :
    LockPlan.Joined R x y ↔ LockPlan.Joined S x y := by
  have crossed : ∀ {R S : LockNum → LockNum → Prop}, Fronted front R S →
      LockPlan.Joined R x y → LockPlan.Joined S x y := by
    rintro R S h (rfl | ⟨hxy, hyx⟩)
    · exact .refl
    · have hx : ¬ front x := by
        intro hx
        obtain ⟨hy, less⟩ := h.lt_of_leads hx hyx
        exact lt_asymm less (h.lt_of_leads hy hxy).2
      have hy : ¬ front y := fun hy => hx (h.lt_of_leads hy hxy).1
      exact .inr ⟨h.leads hx hxy, h.leads hy hyx⟩
  exact ⟨crossed h, crossed h.symm⟩

end Fronted

namespace LockPlan

variable {p q : LockPlan} {m x y : LockNum} {entry : LockNum × Nat}
  {entries sorted : List (LockNum × Nat)} {front : LockNum → Prop}

/-! ## Insertion -/

/-- A lock is inserted behind locks that it does not precede. -/
lemma insertLock_split (p : LockPlan) (entry : LockNum × Nat) (sorted : List (LockNum × Nat)) :
    ∃ before after, sorted = before ++ after ∧
    p.insertLock entry sorted = before ++ entry :: after ∧
    ∀ e ∈ before, p.precedes entry.1 e.1 = false := by
  induction sorted with
  | nil => exact ⟨[], [], rfl, rfl, nofun⟩
  | cons other rest ih =>
    unfold insertLock
    split
    · exact ⟨[], other :: rest, rfl, rfl, nofun⟩
    · rename_i after
      obtain ⟨before, tail, hrest, hinsert, hbefore⟩ := ih
      refine ⟨other :: before, tail, by rw [hrest, List.cons_append],
        by rw [hinsert, List.cons_append], ?_⟩
      exact List.forall_mem_cons.mpr ⟨by simpa using after, hbefore⟩

/-- A lock that precedes none goes to the end. -/
lemma insertLock_last (h : ∀ e ∈ sorted, p.precedes entry.1 e.1 = false) :
    p.insertLock entry sorted = sorted ++ [entry] := by
  induction sorted with
  | nil => rfl
  | cons other rest ih =>
    obtain ⟨hother, hrest⟩ := List.forall_mem_cons.mp h
    rw [insertLock, hother, if_neg Bool.false_ne_true, ih hrest, List.cons_append]

/-- A lock that ends up at the end of a list that lacks it precedes no lock of the list. -/
lemma insertLock_eq_concat (hn : entry ∉ entries)
    (h : p.insertLock entry sorted = entries ++ [entry]) :
    sorted = entries ∧ ∀ e ∈ entries, p.precedes entry.1 e.1 = false := by
  obtain ⟨before, after, hsorted, hinsert, hbefore⟩ := p.insertLock_split entry sorted
  rw [h] at hinsert
  rcases List.append_eq_append_iff.mp hinsert with ⟨c, hc, htail⟩ | ⟨c, hc, htail⟩
  · -- the list is a part of what is before
    cases c with
    | nil =>
      rw [List.append_nil] at hc
      obtain ⟨_, rfl⟩ := List.cons.inj htail
      subst hc
      exact ⟨by rw [hsorted, List.append_nil], hbefore⟩
    | cons e c =>
      obtain ⟨_, hc'⟩ := List.cons.inj htail
      exact absurd hc'.symm (by simp)
  · cases c with
    | nil =>
      rw [List.append_nil] at hc
      obtain ⟨_, rfl⟩ := List.cons.inj htail
      subst hc
      exact ⟨by rw [hsorted, List.append_nil], hbefore⟩
    | cons e c =>
      obtain ⟨rfl, _⟩ := List.cons.inj htail
      rw [hc] at hn
      exact absurd (List.mem_append_right before List.mem_cons_self) hn

/-- Insertion one by one leaves a list alone exactly if no entry precedes an earlier one. -/
lemma foldl_insertLock_eq_iff (nodup : entries.Nodup) :
    entries.foldl (fun sorted entry => p.insertLock entry sorted) [] = entries ↔
      entries.Pairwise fun e f => p.precedes f.1 e.1 = false := by
  induction entries using List.reverseRecOn with
  | nil => exact ⟨fun _ => List.Pairwise.nil, fun _ => rfl⟩
  | append_singleton es e ih =>
    obtain ⟨nodup, _, apart⟩ := List.nodup_append.mp nodup
    have fresh : e ∉ es := fun he => apart e he e List.mem_cons_self rfl
    rw [List.foldl_append, List.foldl_cons, List.foldl_nil]
    constructor
    · intro h
      obtain ⟨same, last⟩ := insertLock_eq_concat fresh h
      refine List.pairwise_append.mpr ⟨(ih nodup).mp same, List.pairwise_singleton _ _, ?_⟩
      intro f hf g hg
      rw [List.mem_singleton.mp hg]
      exact last f hf
    · intro h
      obtain ⟨inner, _, last⟩ := List.pairwise_append.mp h
      rw [(ih nodup).mpr inner]
      exact insertLock_last fun f hf => last f hf e List.mem_cons_self

/-! ## Positions -/

/-- The later of two locks of a lockset is in place with respect to the earlier one. -/
def InPlace (p : LockPlan) (x y : LockNum) : Prop :=
  (p.leaderOf x = p.leaderOf y ∧ p.precedes y x = false) ∨
    (p.leaderOf x ≠ p.leaderOf y ∧ [p.leaderOf x, p.leaderOf y].Sublist p.order)

/-- The entries of a lockset come in the order of their positions. -/
lemma nodup_zipIdx : p.locks.zipIdx.Nodup := by
  refine zipIdx_ascend.imp ?_
  rintro e _ less rfl
  exact Nat.lt_irrefl _ less

/-- Entries come cluster by cluster, in the order of clusters. -/
lemma entries_pairwise : p.entries.Pairwise fun e f =>
    p.leaderOf e.1 = p.leaderOf f.1 ∨ [p.leaderOf e.1, p.leaderOf f.1].Sublist p.order := by
  refine List.pairwise_flatMap.mpr ⟨?_, List.pairwise_iff_forall_sublist.mpr ?_⟩
  · intro m _
    refine List.pairwise_of_forall_mem_list ?_
    intro e he f hf
    exact .inl ((mem_cluster_iff.mp he).2.trans (mem_cluster_iff.mp hf).2.symm)
  · intro m n hmn e he f hf
    rw [(mem_cluster_iff.mp he).2, (mem_cluster_iff.mp hf).2]
    exact .inr hmn

/-- The locks that a section acquires come cluster by cluster. -/
lemma acquired_pairwise : p.acquired.Pairwise fun x y =>
    p.leaderOf x = p.leaderOf y ∨ [p.leaderOf x, p.leaderOf y].Sublist p.order :=
  List.pairwise_map.mpr entries_pairwise

/-- The entries of one leader are its cluster. -/
lemma filter_entries (hm : m ∈ p.order) :
    p.entries.filter (fun e => p.leaderOf e.1 = m) = p.cluster p.leaderOf m := by
  have others : ∀ order : List LockNum, m ∉ order →
      (order.flatMap (p.cluster p.leaderOf)).filter (fun e => p.leaderOf e.1 = m) = [] := by
    intro order hn
    refine List.filter_eq_nil_iff.mpr ?_
    intro e he hem
    obtain ⟨n, hmem, he⟩ := List.mem_flatMap.mp he
    have same : n = m := (mem_cluster_iff.mp he).2.symm.trans (by simpa using hem)
    exact hn (same ▸ hmem)
  have own : (p.cluster p.leaderOf m).filter (fun e => p.leaderOf e.1 = m) =
      p.cluster p.leaderOf m :=
    List.filter_eq_self.mpr fun e he => by simpa using (mem_cluster_iff.mp he).2
  obtain ⟨before, after, split⟩ := List.append_of_mem hm
  have nodup := nodup_order (p := p)
  rw [split] at nodup
  obtain ⟨hafter, hbefore⟩ : m ∉ after ∧ m ∉ before := by
    have parts := List.nodup_append.mp nodup
    exact ⟨(List.nodup_cons.mp parts.2.1).1,
      fun hb => parts.2.2 m hb m List.mem_cons_self rfl⟩
  rw [entries, split, List.flatMap_append, List.flatMap_cons, List.filter_append,
    List.filter_append, others before hbefore, others after hafter, own, List.append_nil,
    List.nil_append]

/-- The positions of a lockset that is left alone come with its locks. -/
lemma positions_eq_range_iff_entries :
    p.positions = List.range p.locks.length ↔ p.entries = p.locks.zipIdx := by
  rw [positions_eq_map]
  constructor
  · intro h
    have ascend : p.entries.Pairwise fun e f => e.2 < f.2 := by
      rw [← List.pairwise_map, h]
      exact List.pairwise_lt_range
    exact entries_perm.eq_of_pairwise
      (fun e f _ _ hef hfe => absurd hfe (Nat.lt_asymm hef)) ascend zipIdx_ascend
  · intro h
    rw [h, List.zipIdx_map_snd, List.range_eq_range']

/-- A lockset that is left alone has every lock in place. -/
lemma inPlace_of_entries (h : p.entries = p.locks.zipIdx) :
    p.locks.zipIdx.Pairwise fun e f => p.InPlace e.1 f.1 := by
  have between := entries_pairwise (p := p)
  rw [h] at between
  refine List.pairwise_iff_forall_sublist.mpr ?_
  intro e f hef
  by_cases same : p.leaderOf e.1 = p.leaderOf f.1
  · -- the cluster of the two is what the lockset has of it, so its insertion leaves it alone
    have he := hef.subset List.mem_cons_self
    have hlock : e.1 ∈ p.locks :=
      List.mem_of_getElem? (List.mk_mem_zipIdx_iff_getElem?.mp he)
    have fixed := filter_entries (leaderOf_mem_order hlock)
    rw [h] at fixed
    have settled := (foldl_insertLock_eq_iff (p := p) (nodup_zipIdx.filter _)).mp fixed.symm
    have pair := hef.filter fun g => decide (p.leaderOf g.1 = p.leaderOf e.1)
    rw [List.filter_cons_of_pos (by simp), List.filter_cons_of_pos (by simp [same]),
      List.filter_nil] at pair
    exact .inl ⟨same, List.pairwise_iff_forall_sublist.mp settled pair⟩
  · rcases List.pairwise_iff_forall_sublist.mp between hef with e | pair
    · exact absurd e same
    · exact .inr ⟨same, pair⟩

/-- A lockset with every lock in place is left alone. -/
lemma entries_of_inPlace (h : p.locks.zipIdx.Pairwise fun e f => p.InPlace e.1 f.1) :
    p.entries = p.locks.zipIdx := by
  have clusters : ∀ m, p.cluster p.leaderOf m = p.locks.zipIdx.filter fun e =>
      p.leaderOf e.1 = m := by
    intro m
    refine (foldl_insertLock_eq_iff (nodup_zipIdx.filter _)).mpr ?_
    refine (h.filter _).imp_of_mem ?_
    intro e f he hf hef
    have heq : p.leaderOf e.1 = p.leaderOf f.1 := by
      rw [of_decide_eq_true (List.mem_filter.mp he).2, of_decide_eq_true (List.mem_filter.mp hf).2]
    rcases hef with ⟨_, after⟩ | ⟨hne, _⟩
    · exact after
    · exact absurd heq hne
  have ascend : p.entries.Pairwise fun e f => e.2 < f.2 := by
    refine List.pairwise_flatMap.mpr ⟨?_, List.pairwise_iff_forall_sublist.mpr ?_⟩
    · intro m _
      rw [clusters]
      exact zipIdx_ascend.filter _
    · intro m n hmn e inside f inside'
      obtain ⟨he, rfl⟩ := mem_cluster_iff.mp inside
      obtain ⟨hf, rfl⟩ := mem_cluster_iff.mp inside'
      -- of two entries that are not in this order the lockset has the second first, in place
      by_contra notLess
      have hne : e ≠ f := by
        rintro rfl
        exact absurd (hmn.nodup nodup_order) (by simp)
      have pair : [f, e].Sublist p.locks.zipIdx := by
        rcases sublist_pair hf he hne.symm with pair | pair
        · exact pair
        · exact absurd (List.pairwise_iff_forall_sublist.mp zipIdx_ascend pair) notLess
      rcases List.pairwise_iff_forall_sublist.mp h pair with ⟨same, _⟩ | ⟨_, back⟩
      · have two := hmn.nodup nodup_order
        rw [same] at two
        simp at two
      · exact sublist_pair_asymm nodup_order hmn back
  exact entries_perm.eq_of_pairwise
    (fun e f _ _ hef hfe => absurd hfe (Nat.lt_asymm hef)) ascend zipIdx_ascend

/-- A plan leaves a lockset alone exactly if every lock is in place with respect to those before
it. -/
theorem positions_eq_range_iff :
    p.positions = List.range p.locks.length ↔ p.locks.Pairwise p.InPlace := by
  have locks : p.locks.Pairwise p.InPlace ↔
      p.locks.zipIdx.Pairwise fun e f => p.InPlace e.1 f.1 := by
    conv_lhs => rw [← List.zipIdx_map_fst 0 p.locks]
    exact List.pairwise_map
  rw [positions_eq_range_iff_entries, locks]
  exact ⟨inPlace_of_entries, entries_of_inPlace⟩

/-! ## Order of clusters -/

/-- From ascending leaders a schedule takes those at the front first, whatever they lead to, if what
leads to one of them is smaller. -/
lemma schedule_congr_front (front : LockNum → Prop) {leads leads' : LockNum → LockNum → Bool}
    {n : Nat} {l : List LockNum}
    (ascend : l.Pairwise (· < ·)) (least : ∀ a ∈ l, ∀ b ∈ l, front a → ¬ front b → a < b)
    (into : ∀ a ∈ l, ∀ b ∈ l, front b → leads a b = true ∨ leads' a b = true → a < b)
    (same : ∀ a ∈ l, ∀ b ∈ l, ¬ front a → leads a b = leads' a b) :
    schedule leads n l = schedule leads' n l := by
  induction n generalizing l with
  | zero => rfl
  | succ n ih =>
    cases l with
    | nil => simp
    | cons a rest =>
      obtain ⟨below, ascend⟩ := List.pairwise_cons.mp ascend
      by_cases ha : front a
      · -- the smallest leader is at the front, so nothing leads to it and it is taken now
        have first : ∀ leads'' : LockNum → LockNum → Bool,
            (∀ b ∈ a :: rest, leads'' b a = true → b < a) → ready leads'' (a :: rest) a = true := by
          intro leads'' smaller
          refine ready_iff.mpr ?_
          intro b hb hba
          have less := smaller b hb hba
          rcases List.mem_cons.mp hb with e | hb
          · exact e
          · exact absurd less (lt_asymm (below b hb))
        have ready₁ := first leads fun b hb hba => into b hb a List.mem_cons_self ha (.inl hba)
        have ready₂ := first leads' fun b hb hba => into b hb a List.mem_cons_self ha (.inr hba)
        rw [schedule_succ, schedule_succ, List.find?_cons_of_pos ready₁,
          List.find?_cons_of_pos ready₂]
        dsimp only
        rw [List.erase_cons_head]
        have tail : ∀ b ∈ rest, b ∈ a :: rest := fun b hb => List.mem_cons_of_mem a hb
        rw [ih ascend (fun b hb c hc => least b (tail b hb) c (tail c hc))
          (fun b hb c hc => into b (tail b hb) c (tail c hc))
          fun b hb c hc => same b (tail b hb) c (tail c hc)]
      · -- no leader is at the front, so the two relations agree
        refine schedule_congr fun b hb c hc => same b hb c hc ?_
        intro hfront
        have less := least b hb a List.mem_cons_self hfront ha
        rcases List.mem_cons.mp hb with rfl | hb
        · exact ha hfront
        · exact lt_asymm less (below b hb)

section Fronted

variable (members : ∀ {x}, x ∈ p.locks ↔ x ∈ q.locks) (h : Fronted front p.View q.View)

include members h

/-- Plans for the same locks with such views have the same leaders. -/
lemma leaderOf_eq_of_fronted (hx : x ∈ p.locks) : p.leaderOf x = q.leaderOf x := by
  obtain ⟨⟨hm, joined⟩, least⟩ := (leaderOf_eq_iff (members.mp hx)).mp rfl
  rw [leaderOf_eq_iff hx]
  refine ⟨⟨members.mpr hm, h.joined_iff.mpr joined⟩, ?_⟩
  intro y hy hxy
  exact least y (members.mp hy) (h.joined_iff.mp hxy)

/-- Plans for the same locks with such views schedule the clusters alike. -/
lemma order_eq_of_fronted
    (least : ∀ x ∈ p.locks, ∀ y ∈ p.locks, front x → ¬ front y → x < y) : p.order = q.order := by
  have leaders : p.leaders p.leaderOf = q.leaders q.leaderOf := by
    refine SortedSet.eq_of_mem_iff (SortedSet.ofList _).sorted (SortedSet.ofList _).sorted ?_
    intro m
    rw [mem_leaders, mem_leaders, members]
    apply and_congr_right
    intro hm
    rw [leaderOf_eq_of_fronted members h (members.mpr hm)]
  have inside : ∀ m ∈ p.leaders p.leaderOf, m ∈ p.locks := fun m hm => (mem_leaders.mp hm).1
  have leads : ∀ {a b}, a ∈ p.locks → q.leadsTo a b = true → TransGen q.View a b := fun ha hab =>
    (leadsTo_iff (members.mp ha)).mp hab
  rw [order, order, ← leaders]
  apply schedule_congr_front front
  · refine (SortedSet.ofList (p.locks.map p.leaderOf)).sorted.imp ?_
    intro a b hab
    simpa [Ranked.before] using hab
  · exact fun a ha b hb => least a (inside a ha) b (inside b hb)
  · rintro a ha b _ hb (hab | hab)
    · exact (h.lt_of_leads hb ((leadsTo_iff (inside a ha)).mp hab)).2
    · exact (h.symm.lt_of_leads hb (leads (inside a ha) hab)).2
  · intro a ha b _ hn
    rw [Bool.eq_iff_iff, leadsTo_iff (inside a ha), leadsTo_iff (members.mp (inside a ha))]
    exact h.leads_iff hn

end Fronted

/-- One lock precedes another by an arc, or by its number where there is no arc back. -/
lemma precedes_iff (hx : x ∈ p.locks) (hy : y ∈ p.locks) :
    p.precedes x y = true ↔ p.View x y ∨ (¬ p.View y x ∧ x < y) := by
  have arc : ∀ {a b}, a ∈ p.locks → b ∈ p.locks → (p.arc a b = true ↔ p.View a b) :=
    fun ha hb => ⟨fun h => ⟨ha, hb, h⟩, fun h => h.2.2⟩
  rw [precedes, Bool.or_eq_true, Bool.and_eq_true, Bool.not_eq_true', ← Bool.not_eq_true,
    decide_eq_true_eq, arc hx hy, arc hy hx]

/-- A plan leaves alone what another plan has put in order, if their views differ at the front only
and no lock precedes an earlier one in its cluster. -/
theorem positions_of_fronted (put : q.locks = p.acquired) (h : Fronted front p.View q.View)
    (least : ∀ x ∈ p.locks, ∀ y ∈ p.locks, front x → ¬ front y → x < y)
    (settled : ∀ {x y}, [x, y].Sublist q.locks → Joined q.View x y → q.precedes y x = false) :
    q.positions = List.range q.locks.length := by
  have members : ∀ {x}, x ∈ p.locks ↔ x ∈ q.locks := by
    intro x
    rw [put]
    exact acquired_perm.mem_iff.symm
  have order := order_eq_of_fronted members h least
  rw [positions_eq_range_iff]
  refine List.pairwise_iff_forall_sublist.mpr ?_
  intro x y hxy
  have hx : x ∈ q.locks := hxy.subset List.mem_cons_self
  have hy : y ∈ q.locks := hxy.subset (List.mem_cons_of_mem x List.mem_cons_self)
  have ex := leaderOf_eq_of_fronted members h (members.mpr hx)
  have ey := leaderOf_eq_of_fronted members h (members.mpr hy)
  by_cases same : q.leaderOf x = q.leaderOf y
  · exact .inl ⟨same, settled hxy ((leaderOf_eq_leaderOf hx hy).mp same)⟩
  · -- the other plan has scheduled the cluster of the earlier lock first
    have before := List.pairwise_iff_forall_sublist.mp (acquired_pairwise (p := p)) (put ▸ hxy)
    rw [ex, ey, order] at before
    exact .inr ⟨same, before.resolve_left same⟩

/-- A plan that leaves a lockset alone sees no arc from a lock to an earlier one, unless the two are
joined, and has no lock of a cluster that precedes an earlier one. -/
theorem settled_of_positions (h : p.positions = List.range p.locks.length)
    (hxy : [x, y].Sublist p.locks) :
    (p.View y x → Joined p.View x y) ∧ (Joined p.View x y → p.precedes y x = false) := by
  have hx : x ∈ p.locks := hxy.subset List.mem_cons_self
  have hy : y ∈ p.locks := hxy.subset (List.mem_cons_of_mem x List.mem_cons_self)
  rw [← leaderOf_eq_leaderOf hx hy]
  rcases List.pairwise_iff_forall_sublist.mp (positions_eq_range_iff.mp h) hxy with
    ⟨same, after⟩ | ⟨apart, before⟩
  · exact ⟨fun _ => same, fun _ => after⟩
  · refine ⟨fun arc => ?_, fun same => absurd same apart⟩
    have apart' : ¬ Joined p.View y x := fun h =>
      apart ((leaderOf_eq_leaderOf hx hy).mpr h.symm)
    have back := order_of_leads hy hx apart' (.single arc)
    exact absurd back (sublist_pair_asymm nodup_order before)

end LockPlan

end Interlock
