import Interlock.Proofs.LockOrder.Before
import Interlock.Proofs.LockOrder.Schedule
import Interlock.Proofs.Walk

/-!
# What a plan says of a lockset

A plan puts the locks of one section in order (`LockPlan.acquired`). The locks fall into clusters:
two locks are in one cluster if they are the same or if visible arcs among the section's locks lead
from each to the other (`LockPlan.Joined`, `leaderOf_eq_leaderOf`). Each cluster is sorted on its
own, the clusters follow each other by `LockPlan.order`, and nothing is lost or added
(`entries_perm`).

The order of two locks of different clusters is that of their clusters (`acquired_before_iff`), and
the order of two locks of one cluster is the one inside it (`acquired_before_cluster`).
-/

namespace Interlock

namespace LockPlan

variable {p : LockPlan} {a b c m : LockNum}

/-- There is a visible arc between two locks of the section. -/
def View (p : LockPlan) (a b : LockNum) : Prop := a ∈ p.locks ∧ b ∈ p.locks ∧ p.arc a b = true

/-- Two locks are the same, or each is led to by the other. -/
def Joined (view : LockNum → LockNum → Prop) (a b : LockNum) : Prop :=
  a = b ∨ (Relation.TransGen view a b ∧ Relation.TransGen view b a)

variable {view : LockNum → LockNum → Prop}

lemma Joined.refl : Joined view a a := .inl rfl

lemma Joined.symm (h : Joined view a b) : Joined view b a := by
  rcases h with rfl | ⟨hab, hba⟩
  · exact .refl
  · exact .inr ⟨hba, hab⟩

lemma Joined.trans (h : Joined view a b) (k : Joined view b c) : Joined view a c := by
  rcases h with rfl | ⟨hab, hba⟩
  · exact k
  · rcases k with rfl | ⟨hbc, hcb⟩
    · exact .inr ⟨hab, hba⟩
    · exact .inr ⟨hab.trans hbc, hcb.trans hba⟩

/-- What a lock leads to, the locks that are joined with it lead to. -/
lemma Joined.leads (h : Joined view a b) (hac : Relation.TransGen view a c) :
    Relation.TransGen view b c := by
  rcases h with rfl | ⟨_, hba⟩
  · exact hac
  · exact hba.trans hac

/-- What leads to a lock leads to the locks that are joined with it. -/
lemma Joined.led (h : Joined view a b) (hca : Relation.TransGen view c a) :
    Relation.TransGen view c b := by
  rcases h with rfl | ⟨hab, _⟩
  · exact hca
  · exact hca.trans hab

lemma mem_next : b ∈ p.next a ↔ b ∈ p.locks ∧ p.arc a b = true := List.mem_filter

/-- A walk goes along arcs to the section's locks. -/
lemma leadsTo_iff_transGen :
    p.leadsTo a b = true ↔ Relation.TransGen (fun x y => y ∈ p.next x) a b := by
  have inside : ∀ x y, y ∈ p.next x → y ∈ p.locks.toFinset := by
    intro x y hy
    exact List.mem_toFinset.mpr (mem_next.mp hy).1
  rw [leadsTo, List.contains_iff_mem, above,
    Walk.mem_nodes (fun x _ => inside x) (inside a) (List.toFinset_card_le p.locks)]
  exact (Relation.TransGen.head'_iff (r := fun x y => y ∈ p.next x)).symm

lemma leadsTo_trans (hab : p.leadsTo a b = true) (hbc : p.leadsTo b c = true) :
    p.leadsTo a c = true := by
  rw [leadsTo_iff_transGen] at hab hbc ⊢
  exact hab.trans hbc

/-- A walk from a lock of the section goes along the visible arcs among its locks. -/
lemma leadsTo_iff (ha : a ∈ p.locks) : p.leadsTo a b = true ↔ Relation.TransGen p.View a b := by
  rw [leadsTo_iff_transGen]
  constructor
  · intro h
    induction h with
    | single hab => exact .single ⟨ha, mem_next.mp hab⟩
    | tail _ hbc ih =>
      obtain ⟨_, _, _, hb, _⟩ := Relation.TransGen.tail'_iff.mp ih
      exact ih.tail ⟨hb, mem_next.mp hbc⟩
  · intro h
    exact h.lift id fun x y hxy => mem_next.mpr hxy.2

/-- Only locks of the section are led to. -/
lemma mem_of_leads (h : Relation.TransGen p.View a b) : b ∈ p.locks := by
  obtain ⟨c, _, _, hb, _⟩ := Relation.TransGen.tail'_iff.mp h
  exact hb

/-- The leader of a lock's cluster. -/
def leaderOf (p : LockPlan) : LockNum → LockNum := p.leader p.leadsTo

/-- The leader is the smallest lock of the section that is joined with the lock. -/
lemma leaderOf_eq_iff (ha : a ∈ p.locks) :
    p.leaderOf a = m ↔
      (m ∈ p.locks ∧ Joined p.View a m) ∧ ∀ b ∈ p.locks, Joined p.View a b → m ≤ b := by
  have members : ∀ b, b ∈ a :: (p.locks.filter fun b => p.leadsTo a b && p.leadsTo b a) ↔
      b ∈ p.locks ∧ Joined p.View a b := by
    intro b
    rw [List.mem_cons, List.mem_filter, Bool.and_eq_true]
    constructor
    · rintro (rfl | ⟨hb, hab, hba⟩)
      · exact ⟨ha, .refl⟩
      · exact ⟨hb, .inr ⟨(leadsTo_iff ha).mp hab, (leadsTo_iff hb).mp hba⟩⟩
    · rintro ⟨hb, rfl | ⟨hab, hba⟩⟩
      · exact .inl rfl
      · exact .inr ⟨hb, (leadsTo_iff ha).mpr hab, (leadsTo_iff hb).mpr hba⟩
  have least : p.leaderOf a = m ↔
      (a :: (p.locks.filter fun b => p.leadsTo a b && p.leadsTo b a)).min? = some m := by
    rw [List.min?_cons', Option.some_inj]
    rfl
  rw [least, List.min?_eq_some_iff, members]
  simp only [members, and_imp]

lemma leaderOf_mem (ha : a ∈ p.locks) : p.leaderOf a ∈ p.locks :=
  ((leaderOf_eq_iff ha).mp rfl).1.1

/-- A lock is joined with its leader. -/
lemma joined_leaderOf (ha : a ∈ p.locks) : Joined p.View a (p.leaderOf a) :=
  ((leaderOf_eq_iff ha).mp rfl).1.2

/-- Two locks have the same leader if they are joined. -/
lemma leaderOf_eq_leaderOf (ha : a ∈ p.locks) (hb : b ∈ p.locks) :
    p.leaderOf a = p.leaderOf b ↔ Joined p.View a b := by
  constructor
  · intro h
    have hbl := joined_leaderOf hb
    rw [← h] at hbl
    exact (joined_leaderOf ha).trans hbl.symm
  · intro h
    obtain ⟨⟨hm, hj⟩, hle⟩ := (leaderOf_eq_iff hb).mp rfl
    rw [leaderOf_eq_iff ha]
    exact ⟨⟨hm, h.trans hj⟩, fun c hc hac => hle c hc (h.symm.trans hac)⟩

lemma leaderOf_leaderOf (ha : a ∈ p.locks) : p.leaderOf (p.leaderOf a) = p.leaderOf a :=
  (leaderOf_eq_leaderOf (leaderOf_mem ha) ha).mpr (joined_leaderOf ha).symm

/-- The leaders are the locks that lead themselves. -/
lemma mem_leaders : m ∈ p.leaders p.leaderOf ↔ m ∈ p.locks ∧ p.leaderOf m = m := by
  rw [leaders, SortedSet.mem_toList, SortedSet.mem_ofList, List.mem_map]
  constructor
  · rintro ⟨a, ha, rfl⟩
    exact ⟨leaderOf_mem ha, leaderOf_leaderOf ha⟩
  · rintro ⟨hm, e⟩
    exact ⟨m, hm, e⟩

lemma nodup_leaders : (p.leaders p.leaderOf).Nodup := by
  refine (SortedSet.ofList (p.locks.map p.leaderOf)).sorted.imp ?_
  intro a b hab e
  subst e
  rw [Ranked.irrefl] at hab
  cases hab

/-- No two leaders lead to each other. -/
lemma oneWay_leaders : OneWay p.leadsTo (p.leaders p.leaderOf) := by
  refine ⟨leadsTo_trans, ?_⟩
  intro a b ha hb hab hba
  obtain ⟨ha, ea⟩ := mem_leaders.mp ha
  obtain ⟨hb, eb⟩ := mem_leaders.mp hb
  rw [← ea, ← eb, leaderOf_eq_leaderOf ha hb]
  exact .inr ⟨(leadsTo_iff ha).mp hab, (leadsTo_iff hb).mp hba⟩

/-- The clusters in order, by their leaders. -/
def order (p : LockPlan) : List LockNum :=
  schedule p.leadsTo (p.leaders p.leaderOf).length (p.leaders p.leaderOf)

/-- Each leader is in the order of clusters, once. -/
lemma order_perm : p.order.Perm (p.leaders p.leaderOf) :=
  schedule_perm oneWay_leaders (Nat.le_refl _)

lemma nodup_order : p.order.Nodup := order_perm.nodup_iff.mpr nodup_leaders

/-- The leaders of the section's locks are in the order of clusters. -/
lemma leaderOf_mem_order (ha : a ∈ p.locks) : p.leaderOf a ∈ p.order :=
  order_perm.mem_iff.mpr (mem_leaders.mpr ⟨leaderOf_mem ha, leaderOf_leaderOf ha⟩)

/-- A cluster that leads to another one comes before it. -/
lemma order_of_leads (ha : a ∈ p.locks) (hb : b ∈ p.locks) (hn : ¬ Joined p.View a b)
    (h : Relation.TransGen p.View a b) : [p.leaderOf a, p.leaderOf b].Sublist p.order := by
  have hlead : p.leadsTo (p.leaderOf a) (p.leaderOf b) = true := by
    rw [leadsTo_iff (leaderOf_mem ha)]
    exact (joined_leaderOf hb).led ((joined_leaderOf ha).leads h)
  refine schedule_leadsTo oneWay_leaders (Nat.le_refl _) ?_ ?_ ?_ hlead
  · exact mem_leaders.mpr ⟨leaderOf_mem ha, leaderOf_leaderOf ha⟩
  · exact mem_leaders.mpr ⟨leaderOf_mem hb, leaderOf_leaderOf hb⟩
  · exact fun e => hn ((leaderOf_eq_leaderOf ha hb).mp e)

lemma insertLock_perm {entry : LockNum × Nat} {l : List (LockNum × Nat)} :
    (p.insertLock entry l).Perm (entry :: l) := by
  induction l with
  | nil => exact .refl _
  | cons other rest ih =>
    unfold insertLock
    split
    · exact .refl _
    · exact (ih.cons other).trans (.swap entry other rest)

lemma foldl_insertLock_perm {entries sorted : List (LockNum × Nat)} :
    (entries.foldl (fun sorted entry => p.insertLock entry sorted) sorted).Perm
      (entries ++ sorted) := by
  induction entries generalizing sorted with
  | nil => exact .refl _
  | cons entry rest ih =>
    rw [List.foldl_cons]
    exact (ih.trans (insertLock_perm.append_left rest)).trans List.perm_middle

/-- A cluster has the locks with its leader. -/
lemma cluster_perm : (p.cluster p.leaderOf m).Perm
    (p.locks.zipIdx.filter fun entry => p.leaderOf entry.1 = m) := by
  refine foldl_insertLock_perm.trans ?_
  rw [List.append_nil]

/-- The locks of a section with their positions, in the order in which they are acquired. -/
def entries (p : LockPlan) : List (LockNum × Nat) := p.order.flatMap (p.cluster p.leaderOf)

/-- Every position of the lockset is taken once, with the lock that is there. -/
theorem entries_perm : p.entries.Perm p.locks.zipIdx := by
  have inside : ∀ entry ∈ p.locks.zipIdx, p.leaderOf entry.1 ∈ p.order := by
    rintro ⟨n, i⟩ h
    exact leaderOf_mem_order (List.mem_of_getElem? (List.mk_mem_zipIdx_iff_getElem?.mp h))
  refine (List.Perm.flatMap_left p.order fun m _ => cluster_perm).trans ?_
  exact perm_flatMap_filter (f := fun entry : LockNum × Nat => p.leaderOf entry.1)
    nodup_order inside

lemma positions_eq_map : p.positions = p.entries.map (·.2) := by
  rw [positions_eq, entries, List.map_flatMap]
  rfl

/-- The locks of a section in the order in which they are acquired. -/
def acquired (p : LockPlan) : List LockNum := p.entries.map (·.1)

/-- A section acquires the locks that it holds. -/
lemma acquired_perm : p.acquired.Perm p.locks := by
  rw [acquired]
  conv_rhs => rw [← List.zipIdx_map_fst 0 p.locks]
  exact entries_perm.map (·.1)

lemma acquired_eq_flatMap :
    p.acquired = p.order.flatMap fun m => (p.cluster p.leaderOf m).map (·.1) := by
  rw [acquired, entries, List.map_flatMap]

/-- A cluster has the locks of the section with its leader. -/
lemma mem_cluster (ha : a ∈ p.locks) :
    a ∈ (p.cluster p.leaderOf m).map (·.1) ↔ m = p.leaderOf a := by
  simp only [List.mem_map, cluster_perm.mem_iff, List.mem_filter, decide_eq_true_eq]
  constructor
  · rintro ⟨entry, ⟨_, e⟩, rfl⟩
    exact e.symm
  · rintro rfl
    obtain ⟨i, hi⟩ := List.mem_iff_getElem?.mp ha
    exact ⟨(a, i), ⟨List.mk_mem_zipIdx_iff_getElem?.mpr hi, rfl⟩, rfl⟩

/-- Two locks of different clusters are acquired in the order of their clusters. -/
theorem acquired_before_iff (ha : a ∈ p.locks) (hb : b ∈ p.locks) (hn : ¬ Joined p.View a b) :
    Before p.acquired a b ↔ [p.leaderOf a, p.leaderOf b].Sublist p.order := by
  have hne : p.leaderOf a ≠ p.leaderOf b := fun e => hn ((leaderOf_eq_leaderOf ha hb).mp e)
  rw [acquired_eq_flatMap]
  constructor
  · intro h
    rcases sublist_pair (leaderOf_mem_order ha) (leaderOf_mem_order hb) hne with hab | hba
    · exact hab
    · have less := before_flatMap (fun m => mem_cluster hb) (fun m => mem_cluster ha) nodup_order
        hne.symm hba
      exact absurd h (Nat.lt_asymm less)
  · exact before_flatMap (fun m => mem_cluster ha) (fun m => mem_cluster hb) nodup_order hne

/-- Two locks of one cluster are acquired in the order that they have in it. -/
theorem acquired_before_cluster (ha : a ∈ p.locks) (hb : b ∈ p.locks) (h : Joined p.View a b) :
    Before p.acquired a b ↔ Before ((p.cluster p.leaderOf (p.leaderOf a)).map (·.1)) a b := by
  have e : p.leaderOf a = p.leaderOf b := (leaderOf_eq_leaderOf ha hb).mpr h
  rw [acquired_eq_flatMap]
  refine before_flatMap_part (fun m => mem_cluster ha) (fun m => ?_) (leaderOf_mem_order ha)
  rw [e]
  exact mem_cluster hb

end LockPlan

end Interlock
