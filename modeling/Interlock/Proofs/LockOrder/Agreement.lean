import Interlock.Proofs.LockOrder.Plan

/-!
# Plans that agree on two locks

Two sections that hold the same two locks need not acquire them in the same order: each plan knows
the section's own locks only, and a lock between the two that one section does not hold is missing
from its plan. `Agree` says when two plans put two locks in the same order nevertheless
(`acquired_agree`). Either arcs lead from the one to the other, and not back, in the view of both
sections; or what leads to the two locks is the same in both views; or the two lie on a common cycle
that is the same in both views.

In the second case the plans are compared on what lies below the two locks (`Below`): both
schedules, cut down to that, are one and the same (`LockPlan.schedule_sublist_iff`).
-/

namespace Interlock

open Relation (TransGen)

variable {R S : LockNum → LockNum → Prop} {x y w z : LockNum}

/-- Arcs lead from the first lock to the second, and none lead back. -/
def Ahead (view : LockNum → LockNum → Prop) (x y : LockNum) : Prop :=
  TransGen view x y ∧ ¬ TransGen view y x

/-- The last lock is one of the other two or leads to one of them. -/
def Below (view : LockNum → LockNum → Prop) (x y w : LockNum) : Prop :=
  w = x ∨ w = y ∨ TransGen view w x ∨ TransGen view w y

/-- The locks on a list that are joined with a lock, as they come. -/
noncomputable def cycle (view : LockNum → LockNum → Prop) (locks : List LockNum) (x : LockNum) :
    List LockNum :=
  locks.filter fun z => @decide (LockPlan.Joined view x z) (Classical.propDecidable _)

/-- Two views of the locks of two sections put two locks in the same order. -/
inductive Agree (R S : LockNum → LockNum → Prop) (locks locks' : List LockNum) (x y : LockNum) :
    Prop
  /-- The first lock is ahead of the second. -/
  | ahead : Ahead R x y → Ahead S x y → Agree R S locks locks' x y
  /-- The second lock is ahead of the first. -/
  | behind : Ahead R y x → Ahead S y x → Agree R S locks locks' x y
  /-- The same locks lead to the two, by the same arcs, and the two are on no common cycle. -/
  | apart : ¬ LockPlan.Joined R x y → (∀ z w, Below R x y w → (R z w ↔ S z w)) →
    Agree R S locks locks' x y
  /-- The two are on a common cycle of the same locks, which come in the same order, and of the same
  arcs. -/
  | together : LockPlan.Joined R x y → cycle R locks x = cycle S locks' x →
    (∀ z ∈ cycle R locks x, ∀ w ∈ cycle R locks x, R z w ↔ S z w) → Agree R S locks locks' x y

lemma mem_cycle {locks : List LockNum} :
    z ∈ cycle R locks x ↔ z ∈ locks ∧ LockPlan.Joined R x z := by
  simp [cycle]

/-- What leads to a lock below is below. -/
lemma Below.of_leads (h : Below R x y w) (hz : TransGen R z w) : Below R x y z := by
  rcases h with rfl | rfl | hx | hy
  · exact .inr (.inr (.inl hz))
  · exact .inr (.inr (.inr hz))
  · exact .inr (.inr (.inl (hz.trans hx)))
  · exact .inr (.inr (.inr (hz.trans hy)))

section Below

variable (same : ∀ z w, Below R x y w → (R z w ↔ S z w))

include same

/-- Views that are the same below two locks have the same locks lead to what is below. -/
lemma leads_iff_of_below (hw : Below R x y w) : TransGen R z w ↔ TransGen S z w := by
  constructor
  · intro h
    induction h using TransGen.head_induction_on with
    | single hzw => exact .single ((same _ _ hw).mp hzw)
    | head hzc hcw ih => exact .head ((same _ _ (hw.of_leads hcw)).mp hzc) ih
  · intro h
    induction h using TransGen.head_induction_on with
    | single hzw => exact .single ((same _ _ hw).mpr hzw)
    | head hzc _ ih => exact .head ((same _ _ (hw.of_leads ih)).mpr hzc) ih

/-- Views that are the same below two locks have the same below. -/
lemma below_iff_of_below : Below R x y z ↔ Below S x y z := by
  have hx : Below R x y x := .inl rfl
  have hy : Below R x y y := .inr (.inl rfl)
  rw [Below, Below, leads_iff_of_below same hx, leads_iff_of_below same hy]

/-- Views that are the same below two locks join the same locks there. -/
lemma joined_iff_of_below (hw : Below R x y w) :
    LockPlan.Joined R w z ↔ LockPlan.Joined S w z := by
  constructor
  · rintro (rfl | ⟨hwz, hzw⟩)
    · exact .refl
    · have hz := hw.of_leads hzw
      exact .inr ⟨(leads_iff_of_below same hz).mp hwz, (leads_iff_of_below same hw).mp hzw⟩
  · rintro (rfl | ⟨hwz, hzw⟩)
    · exact .refl
    · have hzw := (leads_iff_of_below same hw).mpr hzw
      exact .inr ⟨(leads_iff_of_below same (hw.of_leads hzw)).mpr hwz, hzw⟩

end Below

namespace LockPlan

variable {p q : LockPlan} {a b m : LockNum}

/-- The locks below two locks of the section are the section's. -/
lemma mem_of_below (hx : x ∈ p.locks) (hy : y ∈ p.locks) (hw : Below p.View x y w) :
    w ∈ p.locks := by
  rcases hw with rfl | rfl | h | h
  · exact hx
  · exact hy
  · obtain ⟨_, ⟨hw, _⟩, _⟩ := TransGen.head'_iff.mp h
    exact hw
  · obtain ⟨_, ⟨hw, _⟩, _⟩ := TransGen.head'_iff.mp h
    exact hw

/-- The cluster of a lock that is ahead of another comes before the cluster of the other. -/
lemma acquired_ahead (h : Ahead p.View x y) : Before p.acquired x y := by
  obtain ⟨hxy, hyx⟩ := h
  obtain ⟨_, ⟨hx, _⟩, _⟩ := TransGen.head'_iff.mp hxy
  have hy : y ∈ p.locks := mem_of_leads hxy
  have hn : ¬ Joined p.View x y := by
    rintro (rfl | ⟨_, h⟩)
    · exact hyx hxy
    · exact hyx h
  rw [acquired_before_iff hx hy hn]
  exact order_of_leads hx hy hn hxy

/-- Whether a lock is below two locks. -/
noncomputable def isBelow (view : LockNum → LockNum → Prop) (x y w : LockNum) : Bool :=
  @decide (Below view x y w) (Classical.propDecidable _)

lemma isBelow_iff : isBelow R x y w = true ↔ Below R x y w := by
  simp [isBelow]

/-- What leads to a lock that is below is below. -/
lemma keepsBelow : KeepsBelow p.leadsTo (p.leaders p.leaderOf) (isBelow p.View x y) := by
  intro a _ b hb hba hk
  obtain ⟨hb, _⟩ := mem_leaders.mp hb
  rw [isBelow_iff] at hk ⊢
  exact hk.of_leads ((leadsTo_iff hb).mp hba)

/-- A leader is kept if it is below the two locks. -/
lemma mem_leaders_below (hx : x ∈ p.locks) (hy : y ∈ p.locks) :
    w ∈ (p.leaders p.leaderOf).filter (isBelow p.View x y) ↔
      Below p.View x y w ∧ p.leaderOf w = w := by
  rw [List.mem_filter, mem_leaders, isBelow_iff]
  constructor
  · rintro ⟨⟨_, e⟩, hw⟩
    exact ⟨hw, e⟩
  · rintro ⟨hw, e⟩
    exact ⟨⟨mem_of_below hx hy hw, e⟩, hw⟩

section Apart

variable (hx : x ∈ p.locks) (hy : y ∈ p.locks) (hx' : x ∈ q.locks) (hy' : y ∈ q.locks)
  (same : ∀ z w, Below p.View x y w → (p.View z w ↔ q.View z w))

include hx hy hx' hy' same

/-- Plans with the same view of what is below two locks have the same leaders there. -/
lemma leaderOf_eq_of_below (hw : Below p.View x y w) : p.leaderOf w = q.leaderOf w := by
  have hwp : w ∈ p.locks := mem_of_below hx hy hw
  have hwq : w ∈ q.locks := mem_of_below hx' hy' ((below_iff_of_below same).mp hw)
  have joined := fun b => joined_iff_of_below (z := b) same hw
  -- a cycle through a lock below lies below, so it is in both locksets
  have inside : ∀ b, Joined p.View w b → b ∈ p.locks ∧ b ∈ q.locks := by
    rintro b (rfl | ⟨hwb, hbw⟩)
    · exact ⟨hwp, hwq⟩
    · have hb := hw.of_leads hbw
      exact ⟨mem_of_leads hwb, mem_of_below hx' hy' ((below_iff_of_below same).mp hb)⟩
  obtain ⟨⟨_, hj⟩, hle⟩ := (leaderOf_eq_iff hwq).mp rfl
  have hj := (joined _).mpr hj
  rw [leaderOf_eq_iff hwp]
  refine ⟨⟨(inside _ hj).1, hj⟩, ?_⟩
  intro b _ hb
  exact hle b (inside b hb).2 ((joined b).mp hb)

/-- Plans with the same view of what is below two locks have the same list of leaders there. -/
lemma leaders_eq_of_below :
    (p.leaders p.leaderOf).filter (isBelow p.View x y) =
      (q.leaders q.leaderOf).filter (isBelow q.View x y) := by
  refine SortedSet.eq_of_mem_iff ((SortedSet.ofList _).sorted.filter _)
    ((SortedSet.ofList _).sorted.filter _) ?_
  intro w
  rw [mem_leaders_below hx hy, mem_leaders_below hx' hy', ← below_iff_of_below same]
  apply and_congr_right
  intro hw
  rw [leaderOf_eq_of_below hx hy hx' hy' same hw]

/-- Plans with the same view of what is below two locks put the two in the same order. -/
lemma acquired_apart (hn : ¬ Joined p.View x y) :
    Before p.acquired x y ↔ Before q.acquired x y := by
  have hbx : Below p.View x y x := .inl rfl
  have hby : Below p.View x y y := .inr (.inl rfl)
  have hn' : ¬ Joined q.View x y := fun h => hn ((joined_iff_of_below same hbx).mpr h)
  have test : isBelow q.View x y = isBelow p.View x y := by
    funext w
    rw [Bool.eq_iff_iff, isBelow_iff, isBelow_iff, below_iff_of_below same]
  have leader : ∀ w ∈ p.locks, Below p.View x y w →
      isBelow p.View x y (p.leaderOf w) = true := by
    intro w hw hbw
    rw [isBelow_iff]
    rcases joined_leaderOf hw with e | ⟨_, h⟩
    · rwa [← e]
    · exact hbw.of_leads h
  -- both schedules are cut down to the clusters below, which the same test finds for both plans
  have leaders := leaders_eq_of_below hx hy hx' hy' same
  rw [test] at leaders
  have below := keepsBelow (p := q) (x := x) (y := y)
  rw [test] at below
  rw [acquired_before_iff hx hy hn, acquired_before_iff hx' hy' hn',
    ← leaderOf_eq_of_below hx hy hx' hy' same hbx, ← leaderOf_eq_of_below hx hy hx' hy' same hby]
  refine schedule_sublist_iff oneWay_leaders oneWay_leaders keepsBelow below leaders ?_
    (leader x hx hbx) (leader y hy hby)
  intro a ha b hb
  obtain ⟨ha, _⟩ := (mem_leaders_below hx hy).mp ha
  obtain ⟨hb, _⟩ := (mem_leaders_below hx hy).mp hb
  rw [Bool.eq_iff_iff, leadsTo_iff (mem_of_below hx hy ha),
    leadsTo_iff (mem_of_below hx' hy' ((below_iff_of_below same).mp ha))]
  exact leads_iff_of_below same hb

end Apart

/-- Puts a lock before the first that it precedes, as `insertLock` does without the positions. -/
def insertNum (p : LockPlan) (n : LockNum) : List LockNum → List LockNum
  | [] => [n]
  | m :: rest => if p.precedes n m then n :: m :: rest else m :: p.insertNum n rest

/-- Positions do not matter to where a lock is inserted. -/
lemma map_insertLock {entry : LockNum × Nat} {sorted : List (LockNum × Nat)} :
    (p.insertLock entry sorted).map (·.1) = p.insertNum entry.1 (sorted.map (·.1)) := by
  induction sorted with
  | nil => rfl
  | cons other rest ih =>
    rw [insertLock, List.map_cons, insertNum]
    split
    · rfl
    · rw [List.map_cons, ih]

/-- The locks of a cluster are inserted one by one. -/
lemma map_cluster :
    (p.cluster p.leaderOf m).map (·.1) =
      (p.locks.filter fun n => p.leaderOf n = m).foldl
        (fun sorted n => p.insertNum n sorted) [] := by
  have numbers : ∀ (entries sorted : List (LockNum × Nat)),
      (entries.foldl (fun sorted entry => p.insertLock entry sorted) sorted).map (·.1) =
        (entries.map (·.1)).foldl (fun sorted n => p.insertNum n sorted) (sorted.map (·.1)) := by
    intro entries
    induction entries with
    | nil =>
      intro sorted
      rfl
    | cons entry rest ih =>
      intro sorted
      rw [List.foldl_cons, ih, map_insertLock]
      rfl
  have locks : p.locks.filter (fun n => p.leaderOf n = m) =
      (p.locks.zipIdx.filter fun entry => p.leaderOf entry.1 = m).map (·.1) := by
    conv_lhs => rw [← List.zipIdx_map_fst 0 p.locks]
    rw [List.filter_map]
    rfl
  rw [locks, cluster, numbers]
  rfl

lemma mem_insertNum {n : LockNum} {l : List LockNum} : a ∈ p.insertNum n l ↔ a = n ∨ a ∈ l := by
  induction l with
  | nil => simp [insertNum]
  | cons k rest ih =>
    unfold insertNum
    split
    · simp
    · simp only [List.mem_cons, ih]
      tauto

lemma insertNum_congr {n : LockNum} {l : List LockNum}
    (h : ∀ b ∈ l, p.precedes n b = q.precedes n b) : p.insertNum n l = q.insertNum n l := by
  induction l with
  | nil => rfl
  | cons k rest ih =>
    rw [insertNum, insertNum, h k List.mem_cons_self,
      ih fun b hb => h b (List.mem_cons_of_mem k hb)]

/-- How locks are sorted depends on what precedes what among them. -/
lemma foldl_insertNum_congr {l sorted : List LockNum}
    (h : ∀ a ∈ l, ∀ b, b ∈ l ∨ b ∈ sorted → p.precedes a b = q.precedes a b) :
    l.foldl (fun sorted n => p.insertNum n sorted) sorted =
      l.foldl (fun sorted n => q.insertNum n sorted) sorted := by
  induction l generalizing sorted with
  | nil => rfl
  | cons n rest ih =>
    have first : p.insertNum n sorted = q.insertNum n sorted :=
      insertNum_congr fun b hb => h n List.mem_cons_self b (.inr hb)
    rw [List.foldl_cons, List.foldl_cons, first]
    apply ih
    intro a ha b hb
    refine h a (List.mem_cons_of_mem n ha) b ?_
    rcases hb with hb | hb
    · exact .inl (List.mem_cons_of_mem n hb)
    · rcases mem_insertNum.mp hb with rfl | hb
      · exact .inl List.mem_cons_self
      · exact .inr hb

/-- Plans with a common cycle put two locks on it in the same order. -/
lemma acquired_together (hx : x ∈ p.locks) (hy : y ∈ p.locks) (hx' : x ∈ q.locks)
    (hy' : y ∈ q.locks) (hj : Joined p.View x y)
    (same : cycle p.View p.locks x = cycle q.View q.locks x)
    (arcs : ∀ z ∈ cycle p.View p.locks x, ∀ w ∈ cycle p.View p.locks x,
      p.View z w ↔ q.View z w) :
    Before p.acquired x y ↔ Before q.acquired x y := by
  have members : ∀ {r : LockPlan}, x ∈ r.locks →
      r.locks.filter (fun n => r.leaderOf n = r.leaderOf x) = cycle r.View r.locks x := by
    intro r hr
    apply List.filter_congr
    intro n hn
    rw [Bool.eq_iff_iff, decide_eq_true_eq, leaderOf_eq_leaderOf hn hr,
      @decide_eq_true_eq _ (Classical.propDecidable _)]
    exact ⟨Joined.symm, Joined.symm⟩
  have hj' : Joined q.View x y := by
    have hc : y ∈ cycle p.View p.locks x := mem_cycle.mpr ⟨hy, hj⟩
    rw [same] at hc
    exact (mem_cycle.mp hc).2
  have inside : ∀ z ∈ cycle p.View p.locks x, z ∈ p.locks ∧ z ∈ q.locks := by
    intro z hz
    have hz' := hz
    rw [same] at hz'
    exact ⟨(mem_cycle.mp hz).1, (mem_cycle.mp hz').1⟩
  have arc : ∀ z ∈ cycle p.View p.locks x, ∀ w ∈ cycle p.View p.locks x,
      p.arc z w = q.arc z w := by
    intro z hz w hw
    have h := arcs z hz w hw
    obtain ⟨hzp, hzq⟩ := inside z hz
    obtain ⟨hwp, hwq⟩ := inside w hw
    rw [Bool.eq_iff_iff]
    constructor
    · intro k
      exact (h.mp ⟨hzp, hwp, k⟩).2.2
    · intro k
      exact (h.mpr ⟨hzq, hwq, k⟩).2.2
  -- the two locks are in one cluster, which both plans sort by the same arcs
  rw [acquired_before_cluster hx hy hj, acquired_before_cluster hx' hy' hj', map_cluster,
    map_cluster, members hx, members hx', ← same]
  rw [foldl_insertNum_congr (q := q)]
  intro z hz w hw
  have hw := hw.resolve_right List.not_mem_nil
  rw [precedes, precedes, arc z hz w hw, arc w hw z hz]

/-- Plans that agree on two locks put them in the same order. -/
theorem acquired_agree (hx : x ∈ p.locks) (hy : y ∈ p.locks) (hx' : x ∈ q.locks)
    (hy' : y ∈ q.locks) (h : Agree p.View q.View p.locks q.locks x y) :
    Before p.acquired x y ↔ Before q.acquired x y := by
  cases h with
  | ahead hp hq =>
    have hp := acquired_ahead hp
    have hq := acquired_ahead hq
    exact ⟨fun _ => hq, fun _ => hp⟩
  | behind hp hq =>
    have hp := acquired_ahead hp
    have hq := acquired_ahead hq
    constructor
    · intro h
      exact absurd h (Nat.lt_asymm hp)
    · intro h
      exact absurd h (Nat.lt_asymm hq)
  | apart hn same => exact acquired_apart hx hy hx' hy' same hn
  | together hj same arcs => exact acquired_together hx hy hx' hy' hj same arcs

end LockPlan

end Interlock
