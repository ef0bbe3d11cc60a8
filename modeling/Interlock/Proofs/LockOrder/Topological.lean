import Interlock.Proofs.LockOrder.Steady

/-!
# Plans are topological sorts

A plan acquires a lock before every lock that it leads to, unless that leads back; and then every
occurrence of the one comes before every occurrence of the other (`LockPlan.acquired_lt`).

Where nothing leads back, each lock is a cluster of its own, so the plan is the schedule of the
section's locks in ascending order (`acquired_of_acyclic`). A schedule always takes the smallest
lock that it may take. So the plan comes first, in the order of words, of all sequences in which
every arc leads forward (`acquired_least`).
-/

namespace Interlock

open Relation (TransGen)

/-- Every arc leads from an earlier member of the list to a later one. -/
def Forward (arc : LockNum → LockNum → Prop) (l : List LockNum) : Prop :=
  ∀ ⦃x y⦄, arc x y → Before l x y

/-- Where every arc leads forward, so does every path. -/
lemma Forward.transGen {arc : LockNum → LockNum → Prop} {l : List LockNum} (h : Forward arc l) :
    Forward (TransGen arc) l := by
  intro x y hxy
  induction hxy with
  | single hxy => exact h hxy
  | tail _ hyz ih => exact Nat.lt_trans ih (h hyz)

namespace LockPlan

variable {p : LockPlan} {leads : LockNum → LockNum → Bool} {l k : List LockNum} {a b m : LockNum}
  {i j n : Nat}

/-- A lock is acquired before those that it leads to and that do not lead back to it. -/
lemma acquired_lt (there : TransGen p.View a b) (back : ¬ TransGen p.View b a)
    (hi : p.acquired[i]? = some a) (hj : p.acquired[j]? = some b) : i < j := by
  have ha : a ∈ p.locks := acquired_perm.mem_iff.mp (List.mem_of_getElem? hi)
  have hb : b ∈ p.locks := mem_of_leads there
  have apart : ¬ Joined p.View a b := by
    rintro (rfl | ⟨_, hba⟩)
    · exact back there
    · exact back hba
  by_contra notLess
  rcases Nat.lt_or_eq_of_le (Nat.not_lt.mp notLess) with less | same
  · -- of two locks in this order the clusters are in this order, or the same
    have pair : [b, a].Sublist p.acquired := pair_sublist_iff.mpr ⟨i, j, less, hi, hj⟩
    rcases List.pairwise_iff_forall_sublist.mp acquired_pairwise pair with same | ordered
    · exact apart ((leaderOf_eq_leaderOf ha hb).mp same.symm)
    · exact sublist_pair_asymm nodup_order (order_of_leads ha hb apart there) ordered
  · rw [same, hi] at hj
    cases hj
    exact apart .refl

/-- Where every arc leads forward, nothing leads to the first member. -/
lemma not_leads_head (forward : ∀ x ∈ l, ∀ y ∈ l, leads x y = true → Before (a :: k) x y)
    (ha : a ∈ l) (hb : b ∈ l) : ¬ leads b a = true := by
  intro hba
  have less := forward b hb a ha hba
  rw [Before, List.idxOf_cons_self] at less
  exact Nat.not_lt_zero _ less

/-- The first ready member of an ascending list is the smallest that is ready. -/
lemma le_of_find? (ascend : l.Pairwise (· < ·)) (hf : l.find? (ready leads l) = some a) (hb : b ∈ l)
    (hr : ready leads l b = true) : b = a ∨ a < b := by
  obtain ⟨_, before, after, split, earlier⟩ := List.find?_eq_some_iff_append.mp hf
  rw [split] at ascend hb
  obtain ⟨_, tail, _⟩ := List.pairwise_append.mp ascend
  rcases List.mem_append.mp hb with hb | hb
  · have not := earlier b hb
    rw [hr] at not
    cases not
  · rcases List.mem_cons.mp hb with same | hb
    · exact .inl same
    · exact .inr ((List.pairwise_cons.mp tail).1 b hb)

/-- A schedule of an ascending list comes first, in the order of words, of all sequences of its
members in which those that lead to others come before these. -/
theorem schedule_least (h : OneWay leads l) (ascend : l.Pairwise (· < ·)) (hn : l.length ≤ n)
    (perm : k.Perm l) (forward : ∀ x ∈ l, ∀ y ∈ l, leads x y = true → Before k x y) :
    k = schedule leads n l ∨ List.Lex (· < ·) (schedule leads n l) k := by
  induction n generalizing l k with
  | zero =>
    cases List.eq_nil_of_length_eq_zero (Nat.le_zero.mp hn)
    exact .inl perm.eq_nil
  | succ n ih =>
    cases k with
    | nil =>
      rw [perm.symm.eq_nil, schedule_nil]
      exact .inl rfl
    | cons b rest =>
      have hb : b ∈ l := perm.subset List.mem_cons_self
      obtain ⟨a, hf, ha, _⟩ := find?_ready h (List.ne_nil_of_mem hb)
      rw [schedule_succ, hf]
      -- nothing leads to the first member, so it may be taken as well
      have hr : ready leads l b = true :=
        ready_iff.mpr fun c hc hcb => absurd hcb (not_leads_head forward hb hc)
      rcases le_of_find? ascend hf hb hr with rfl | less
      · have hlen : (l.erase b).length ≤ n := by
          rw [List.length_erase_of_mem ha]
          omega
        have rest' : rest.Perm (l.erase b) := List.cons_perm_iff_perm_erase.mp perm |>.2
        have nodup : l.Nodup := ascend.imp fun less => ne_of_lt less
        have forward' : ∀ x ∈ l.erase b, ∀ y ∈ l.erase b, leads x y = true → Before rest x y := by
          intro x hx y hy hxy
          obtain ⟨hxb, hx⟩ := nodup.mem_erase_iff.mp hx
          obtain ⟨hyb, hy⟩ := nodup.mem_erase_iff.mp hy
          have before := forward x hx y hy hxy
          rw [Before, List.idxOf_cons_ne _ hxb.symm, List.idxOf_cons_ne _ hyb.symm] at before
          exact Nat.lt_of_succ_lt_succ before
        rcases ih (h.mono List.erase_subset) (ascend.sublist List.erase_sublist) hlen
          rest' forward' with
          same | less
        · exact .inl (congrArg (b :: ·) same)
        · exact .inr (.cons less)
      · exact .inr (.rel less)

section Acyclic

-- nothing leads back, so every lock is a cluster of its own
variable (acyclic : ∀ x, ¬ TransGen p.View x x)

include acyclic

lemma leaderOf_of_acyclic (ha : a ∈ p.locks) : p.leaderOf a = a := by
  rw [leaderOf_eq_iff ha]
  refine ⟨⟨ha, .refl⟩, ?_⟩
  rintro b _ (rfl | ⟨hab, hba⟩)
  · exact le_refl a
  · exact absurd (hab.trans hba) (acyclic a)

lemma mem_leaders_of_acyclic : a ∈ p.leaders p.leaderOf ↔ a ∈ p.locks := by
  rw [mem_leaders]
  exact and_iff_left_of_imp (leaderOf_of_acyclic acyclic)

lemma cluster_of_acyclic (nodup : p.locks.Nodup) (hm : m ∈ p.locks) :
    (p.cluster p.leaderOf m).map (·.1) = [m] := by
  have parts : ((p.cluster p.leaderOf m).map (·.1)).Nodup := by
    have sub : ((p.locks.zipIdx.filter fun entry => p.leaderOf entry.1 = m).map (·.1)).Sublist
        p.locks := by
      conv_rhs => rw [← List.zipIdx_map_fst 0 p.locks]
      exact List.filter_sublist.map _
    exact (cluster_perm.map (·.1)).nodup_iff.mpr (nodup.sublist sub)
  apply List.perm_singleton.mp
  rw [List.perm_ext_iff_of_nodup parts (List.nodup_singleton m)]
  intro a
  rw [List.mem_singleton]
  constructor
  · intro ha
    obtain ⟨entry, he, rfl⟩ := List.mem_map.mp ha
    obtain ⟨there, led⟩ := mem_cluster_iff.mp he
    have locks := List.mem_of_getElem? (List.mk_mem_zipIdx_iff_getElem?.mp there)
    rw [← led, leaderOf_of_acyclic acyclic locks]
  · rintro rfl
    exact (mem_cluster hm).mpr (leaderOf_of_acyclic acyclic hm).symm

/-- Where nothing leads back, distinct locks are acquired as they are scheduled. -/
lemma acquired_of_acyclic (nodup : p.locks.Nodup) : p.acquired = p.order := by
  have alone : ∀ m ∈ p.order, (p.cluster p.leaderOf m).map (·.1) = [m] := fun m hm =>
    cluster_of_acyclic acyclic nodup
      ((mem_leaders_of_acyclic acyclic).mp (order_perm.mem_iff.mp hm))
  rw [acquired_eq_flatMap, List.flatMap_congr alone, List.flatMap_singleton']

lemma forward_acquired : Forward p.View p.acquired := by
  intro x y hxy
  have stands : ∀ {a}, a ∈ p.locks → p.acquired[p.acquired.idxOf a]? = some a := fun ha =>
    List.getElem?_idxOf (acquired_perm.mem_iff.mpr ha)
  exact acquired_lt (.single hxy) (fun back => acyclic x (.head hxy back)) (stands hxy.1)
    (stands hxy.2.1)

/-- Where nothing leads back, distinct locks are acquired in the first, in the order of words, of
all sequences in which every arc leads forward. -/
theorem acquired_least (nodup : p.locks.Nodup) (perm : l.Perm p.locks)
    (forward : Forward p.View l) :
    l = p.acquired ∨ List.Lex (· < ·) p.acquired l := by
  have leaders : (p.leaders p.leaderOf).Perm p.locks :=
    (List.perm_ext_iff_of_nodup nodup_leaders nodup).mpr fun a => mem_leaders_of_acyclic acyclic
  have ascend : (p.leaders p.leaderOf).Pairwise (· < ·) :=
    (SortedSet.ofList (p.locks.map p.leaderOf)).sorted.imp of_decide_eq_true
  rw [acquired_of_acyclic acyclic nodup]
  refine schedule_least oneWay_leaders ascend (Nat.le_refl _) (perm.trans leaders.symm) ?_
  intro x hx y hy hxy
  have hx := leaders.mem_iff.mp hx
  exact forward.transGen ((leadsTo_iff hx).mp hxy)

end Acyclic

end LockPlan

end Interlock
