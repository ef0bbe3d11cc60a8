import Interlock.LockOrder.Reorder
import Mathlib.Data.List.Basic
import Mathlib.Data.List.Find
import Mathlib.Tactic.Common

/-!
# The order of clusters

`LockPlan.schedule` takes clusters one by one, each the first on the list that no other cluster left
leads to. Where no two clusters lead to each other (`OneWay`) there always is one (`exists_ready`),
so all clusters are taken (`schedule_perm`), and one that leads to another is taken before it
(`schedule_leadsTo`).

What else is on the list makes no difference to clusters that it does not lead to: the schedule of a
list, cut down to clusters that only such clusters lead to, is the schedule of the list that is cut
down in the same way (`filter_schedule`). Two schedules thus agree on two clusters if they agree on
what leads to these (`schedule_sublist_iff`).
-/

namespace Interlock.LockPlan

variable {leadsTo leadsTo' : LockNum → LockNum → Bool} {l k : List LockNum} {m n : Nat}
  {a b : LockNum} {keep : LockNum → Bool}

/-- Leading goes on, and no two members of the list lead to each other. -/
structure OneWay (leadsTo : LockNum → LockNum → Bool) (l : List LockNum) : Prop where
  trans : ∀ {a b c}, leadsTo a b = true → leadsTo b c = true → leadsTo a c = true
  antisymm : ∀ {a b}, a ∈ l → b ∈ l → leadsTo a b = true → leadsTo b a = true → a = b

lemma OneWay.mono (h : OneWay leadsTo l) (hk : k ⊆ l) : OneWay leadsTo k :=
  ⟨h.trans, fun ha hb => h.antisymm (hk ha) (hk hb)⟩

/-- No other member of the list leads to this one. -/
def ready (leadsTo : LockNum → LockNum → Bool) (l : List LockNum) (a : LockNum) : Bool :=
  l.all fun b => b = a || !leadsTo b a

lemma ready_iff : ready leadsTo l a = true ↔ ∀ b ∈ l, leadsTo b a = true → b = a := by
  simp only [ready, List.all_eq_true, Bool.or_eq_true, decide_eq_true_eq, Bool.not_eq_true']
  constructor
  · intro h b hb hba
    rcases h b hb with e | hn
    · exact e
    · rw [hba] at hn
      cases hn
  · intro h b hb
    cases hba : leadsTo b a with
    | true => exact .inl (h b hb hba)
    | false => exact .inr rfl

lemma schedule_succ :
    schedule leadsTo (n + 1) l =
      match l.find? (ready leadsTo l) with
      | some a => a :: schedule leadsTo n (l.erase a)
      | none => [] :=
  rfl

@[simp] lemma schedule_nil : schedule leadsTo n [] = [] := by
  cases n <;> rfl

/-- Some member of a one-way list is ready. -/
lemma exists_ready (h : OneWay leadsTo l) (hne : l ≠ []) : ∃ a ∈ l, ready leadsTo l a = true := by
  induction l with
  | nil => exact absurd rfl hne
  | cons x rest ih =>
    by_cases hr : rest = []
    · subst hr
      refine ⟨x, List.mem_singleton.mpr rfl, ready_iff.mpr ?_⟩
      intro b hb _
      exact List.mem_singleton.mp hb
    · obtain ⟨a, ha, hready⟩ := ih (h.mono (List.subset_cons_self x rest)) hr
      by_cases hxa : leadsTo x a = true
      · -- what leads to `x` leads to `a`, and in the rest only `a` does
        refine ⟨x, List.mem_cons_self, ready_iff.mpr ?_⟩
        intro b hb hbx
        rcases List.mem_cons.mp hb with e | hb
        · exact e
        · have e : b = a := ready_iff.mp hready b hb (h.trans hbx hxa)
          subst e
          exact h.antisymm (List.mem_cons_of_mem x hb) List.mem_cons_self hbx hxa
      · refine ⟨a, List.mem_cons_of_mem x ha, ready_iff.mpr ?_⟩
        intro b hb hba
        rcases List.mem_cons.mp hb with rfl | hb
        · exact absurd hba hxa
        · exact ready_iff.mp hready b hb hba

/-- A schedule of a one-way list goes on until nothing is left. -/
lemma find?_ready (h : OneWay leadsTo l) (hne : l ≠ []) :
    ∃ a, l.find? (ready leadsTo l) = some a ∧ a ∈ l ∧ ready leadsTo l a = true := by
  obtain ⟨b, hb, hready⟩ := exists_ready h hne
  obtain ⟨a, ha⟩ := Option.isSome_iff_exists.mp (List.find?_isSome.mpr ⟨b, hb, hready⟩)
  exact ⟨a, ha, List.mem_of_find?_eq_some ha, List.find?_some ha⟩

/-- Every member is scheduled, as often as it is there. -/
lemma schedule_perm (h : OneWay leadsTo l) (hn : l.length ≤ n) : (schedule leadsTo n l).Perm l := by
  induction n generalizing l with
  | zero =>
    cases List.eq_nil_of_length_eq_zero (Nat.le_zero.mp hn)
    exact .refl []
  | succ n ih =>
    by_cases hne : l = []
    · subst hne
      rw [schedule_nil]
    · obtain ⟨a, hf, ha, _⟩ := find?_ready h hne
      rw [schedule_succ, hf]
      have hlen : (l.erase a).length ≤ n := by
        rw [List.length_erase_of_mem ha]
        omega
      have rest := ih (h.mono List.erase_subset) hlen
      exact (rest.cons a).trans (List.perm_cons_erase ha).symm

/-- A member that leads to another is scheduled before it. -/
lemma schedule_leadsTo (h : OneWay leadsTo l) (hn : l.length ≤ n) (ha : a ∈ l) (hb : b ∈ l)
    (hne : a ≠ b) (hab : leadsTo a b = true) : [a, b].Sublist (schedule leadsTo n l) := by
  induction n generalizing l with
  | zero =>
    cases List.eq_nil_of_length_eq_zero (Nat.le_zero.mp hn)
    cases ha
  | succ n ih =>
    obtain ⟨c, hf, hc, hready⟩ := find?_ready h (List.ne_nil_of_mem ha)
    rw [schedule_succ, hf]
    have hlen : (l.erase c).length ≤ n := by
      rw [List.length_erase_of_mem hc]
      omega
    have one := h.mono (List.erase_subset (a := c) (l := l))
    have hbc : b ≠ c := by
      rintro rfl
      exact hne (ready_iff.mp hready a ha hab)
    have hb' : b ∈ l.erase c := (List.mem_erase_of_ne hbc).mpr hb
    by_cases hac : a = c
    · subst hac
      refine List.Sublist.cons_cons a (List.singleton_sublist.mpr ?_)
      exact (schedule_perm one hlen).mem_iff.mpr hb'
    · have ha' : a ∈ l.erase c := (List.mem_erase_of_ne hac).mpr ha
      exact (ih one hlen ha' hb').cons c

/-- The members on the list that lead to a member that is kept are kept. -/
def KeepsBelow (leadsTo : LockNum → LockNum → Bool) (l : List LockNum) (keep : LockNum → Bool) :
    Prop :=
  ∀ a ∈ l, ∀ b ∈ l, leadsTo b a = true → keep a = true → keep b = true

/-- A member is ready among those that are kept if it is ready among all. -/
lemma ready_filter (below : KeepsBelow leadsTo l keep) (ha : a ∈ l) (hk : keep a = true) :
    ready leadsTo (l.filter keep) a = ready leadsTo l a := by
  rw [Bool.eq_iff_iff, ready_iff, ready_iff]
  constructor
  · intro h b hb hba
    exact h b (List.mem_filter.mpr ⟨hb, below a ha b hb hba hk⟩) hba
  · intro h b hb hba
    exact h b (List.mem_of_mem_filter hb) hba

/-- The first ready member stays the first if it is kept. -/
lemma find?_ready_filter (below : KeepsBelow leadsTo l keep)
    (hf : l.find? (ready leadsTo l) = some a) (hk : keep a = true) :
    (l.filter keep).find? (ready leadsTo (l.filter keep)) = some a := by
  obtain ⟨hready, before, after, rfl, hbefore⟩ := List.find?_eq_some_iff_append.mp hf
  have ha : a ∈ before ++ a :: after := by simp
  rw [List.find?_filter, List.find?_eq_some_iff_append]
  refine ⟨?_, before, after, rfl, ?_⟩
  · rw [ready_filter below ha hk, hk, hready]
    rfl
  · intro x hx
    have hx' : x ∈ before ++ a :: after := List.mem_append_left _ hx
    cases hkx : keep x with
    | false => rfl
    | true =>
      rw [ready_filter below hx' hkx]
      simpa using hbefore x hx

/-- The schedule of the members that are kept is what is kept of the schedule. -/
lemma filter_schedule (h : OneWay leadsTo l) (below : KeepsBelow leadsTo l keep)
    (hn : l.length ≤ n) (hm : (l.filter keep).length ≤ m) :
    (schedule leadsTo n l).filter keep = schedule leadsTo m (l.filter keep) := by
  induction n generalizing l m with
  | zero =>
    cases List.eq_nil_of_length_eq_zero (Nat.le_zero.mp hn)
    simp [schedule]
  | succ n ih =>
    by_cases hne : l = []
    · subst hne
      simp
    · obtain ⟨a, hf, ha, _⟩ := find?_ready h hne
      have hlen : (l.erase a).length ≤ n := by
        rw [List.length_erase_of_mem ha]
        omega
      have one := h.mono (List.erase_subset (a := a) (l := l))
      have below' : KeepsBelow leadsTo (l.erase a) keep := fun c hc d hd =>
        below c (List.mem_of_mem_erase hc) d (List.mem_of_mem_erase hd)
      rw [schedule_succ, hf, List.filter_cons]
      cases hk : keep a with
      | true =>
        -- both schedules take `a`
        have ha' : a ∈ l.filter keep := List.mem_filter.mpr ⟨ha, hk⟩
        have hpos := List.length_pos_of_mem ha'
        obtain ⟨m, rfl⟩ : ∃ k, m = k + 1 := ⟨m - 1, by omega⟩
        have hlen' : ((l.erase a).filter keep).length ≤ m := by
          rw [← List.erase_filter, List.length_erase_of_mem ha']
          omega
        rw [schedule_succ, find?_ready_filter below hf hk, if_pos rfl, ih one below' hlen hlen']
        simp only [List.erase_filter]
      | false =>
        -- only the schedule of all takes a step, so the other bound stays
        have same : (l.erase a).filter keep = l.filter keep := by
          rw [← List.erase_filter, List.erase_of_not_mem]
          intro ha'
          rw [(List.mem_filter.mp ha').2] at hk
          cases hk
        rw [if_neg Bool.false_ne_true]
        rw [← same] at hm ⊢
        exact ih one below' hlen hm

/-- A schedule depends on what leads to what among its members. -/
lemma schedule_congr (same : ∀ a ∈ l, ∀ b ∈ l, leadsTo a b = leadsTo' a b) :
    schedule leadsTo n l = schedule leadsTo' n l := by
  induction n generalizing l with
  | zero => rfl
  | succ n ih =>
    have hready : ∀ a ∈ l, ready leadsTo l a = ready leadsTo' l a := by
      intro a ha
      rw [Bool.eq_iff_iff, ready_iff, ready_iff]
      constructor
      · intro h b hb hba
        exact h b hb (by rwa [same b hb a ha])
      · intro h b hb hba
        exact h b hb (by rwa [← same b hb a ha])
    have hf : l.find? (ready leadsTo l) = l.find? (ready leadsTo' l) := List.find?_congr hready
    rw [schedule_succ, schedule_succ, hf]
    cases l.find? (ready leadsTo' l) with
    | none => rfl
    | some a =>
      have rest := ih (l := l.erase a) fun c hc d hd =>
        same c (List.mem_of_mem_erase hc) d (List.mem_of_mem_erase hd)
      simp only [rest]

/-- Two schedules that agree on the members that lead to two of them put these two in the same
order. -/
theorem schedule_sublist_iff (hl : OneWay leadsTo l) (hk : OneWay leadsTo' k)
    (below : KeepsBelow leadsTo l keep) (below' : KeepsBelow leadsTo' k keep)
    (same : l.filter keep = k.filter keep)
    (agree : ∀ a ∈ l.filter keep, ∀ b ∈ l.filter keep, leadsTo a b = leadsTo' a b)
    (ha : keep a = true) (hb : keep b = true) :
    [a, b].Sublist (schedule leadsTo l.length l) ↔
      [a, b].Sublist (schedule leadsTo' k.length k) := by
  have pair : [a, b].filter keep = [a, b] := by simp [ha, hb]
  have cut : ∀ s : List LockNum, [a, b].Sublist s ↔ [a, b].Sublist (s.filter keep) := by
    intro s
    constructor
    · intro h
      rw [← pair]
      exact h.filter keep
    · intro h
      exact h.trans List.filter_sublist
  rw [cut, cut (schedule leadsTo' k.length k),
    filter_schedule hl below (Nat.le_refl _) (Nat.le_refl _),
    filter_schedule hk below' (Nat.le_refl _) (Nat.le_refl _), ← same, schedule_congr agree]

end Interlock.LockPlan
