import Interlock.Identity
import Mathlib.Data.List.Basic
import Mathlib.Tactic.Common

/-!
# Which of two locks comes first

`Before` compares two locks of a list by their first occurrences. Where a list is put together from
parts, two locks of different parts are in the order of the parts (`before_flatMap`), and two locks
of one part are in the order that they have there (`before_flatMap_part`). Two members at different
positions are a pair as a sublist (`pair_sublist_iff`).
-/

namespace Interlock

variable {l k parts : List LockNum} {f : LockNum → List LockNum} {a b x y : LockNum}

/-- The list has the first lock before the second, by their first occurrences. -/
def Before (l : List LockNum) (a b : LockNum) : Prop := l.idxOf a < l.idxOf b

instance (l : List LockNum) (a b : LockNum) : Decidable (Before l a b) :=
  inferInstanceAs (Decidable (_ < _))

lemma before_append (ha : a ∈ l) (hb : b ∉ l) :
    Before (l ++ k) a b := by
  have less := List.idxOf_lt_length_of_mem ha
  rw [Before, List.idxOf_append_of_mem ha, List.idxOf_append_of_notMem hb]
  omega

lemma before_append_left (ha : a ∈ l) (hb : b ∈ l) :
    Before (l ++ k) a b ↔ Before l a b := by
  rw [Before, List.idxOf_append_of_mem ha, List.idxOf_append_of_mem hb, Before]

lemma before_append_right (ha : a ∉ l) (hb : b ∉ l) :
    Before (l ++ k) a b ↔ Before k a b := by
  rw [Before, List.idxOf_append_of_notMem ha, List.idxOf_append_of_notMem hb, Before,
    Nat.add_lt_add_iff_left]

/-- Two members of different parts are in the order of these parts. -/
lemma before_flatMap (ha : ∀ m, a ∈ f m ↔ m = x) (hb : ∀ m, b ∈ f m ↔ m = y) (nodup : parts.Nodup)
    (hne : x ≠ y) (h : [x, y].Sublist parts) : Before (parts.flatMap f) a b := by
  induction parts with
  | nil => cases h
  | cons m rest ih =>
    obtain ⟨hm, nodup⟩ := List.nodup_cons.mp nodup
    rw [List.flatMap_cons]
    cases h with
    | cons_cons _ _ =>
      refine before_append ((ha x).mpr rfl) ?_
      rw [hb]
      exact hne
    | cons _ h =>
      have hx : m ≠ x := by
        rintro rfl
        exact hm (h.subset List.mem_cons_self)
      have hy : m ≠ y := by
        rintro rfl
        exact hm (h.subset (List.mem_cons_of_mem _ List.mem_cons_self))
      rw [before_append_right (by rwa [ha]) (by rwa [hb])]
      exact ih nodup h

/-- Two members of one part are in the order that they have in it. -/
lemma before_flatMap_part (ha : ∀ m, a ∈ f m ↔ m = x) (hb : ∀ m, b ∈ f m ↔ m = x) (hx : x ∈ parts) :
    Before (parts.flatMap f) a b ↔ Before (f x) a b := by
  induction parts with
  | nil => cases hx
  | cons m rest ih =>
    rw [List.flatMap_cons]
    by_cases e : m = x
    · subst e
      exact before_append_left ((ha m).mpr rfl) ((hb m).mpr rfl)
    · rw [before_append_right (by rwa [ha]) (by rwa [hb])]
      refine ih ((List.mem_cons.mp hx).resolve_left ?_)
      rintro rfl
      exact e rfl

/-- Of two members of a list one comes after the other. -/
lemma sublist_pair {α : Type} {l : List α} {a b : α} (ha : a ∈ l) (hb : b ∈ l) (hne : a ≠ b) :
    [a, b].Sublist l ∨ [b, a].Sublist l := by
  induction l with
  | nil => cases ha
  | cons x rest ih =>
    rcases List.mem_cons.mp ha with rfl | ha'
    · have hb' := (List.mem_cons.mp hb).resolve_left fun e => hne e.symm
      exact .inl ((List.singleton_sublist.mpr hb').cons_cons a)
    · rcases List.mem_cons.mp hb with rfl | hb'
      · exact .inr ((List.singleton_sublist.mpr ha').cons_cons b)
      · exact (ih ha' hb').imp (·.cons x) (·.cons x)

/-- A filter that keeps two members keeps their order. -/
lemma before_filter {keep : LockNum → Bool} (ha : keep a = true) (hb : keep b = true) :
    Before (l.filter keep) a b ↔ Before l a b := by
  induction l with
  | nil => exact Iff.rfl
  | cons x rest ih =>
    unfold Before at ih ⊢
    by_cases hx : keep x = true
    · rw [List.filter_cons_of_pos hx]
      by_cases hxb : x = b
      · simp [hxb]
      · rw [List.idxOf_cons_ne _ hxb, List.idxOf_cons_ne _ hxb]
        by_cases hxa : x = a
        · simp [hxa]
        · rw [List.idxOf_cons_ne _ hxa, List.idxOf_cons_ne _ hxa, Nat.succ_lt_succ_iff, ih,
            Nat.succ_lt_succ_iff]
    · have hxa : x ≠ a := by
        rintro rfl
        exact hx ha
      have hxb : x ≠ b := by
        rintro rfl
        exact hx hb
      rw [List.filter_cons_of_neg hx, ih, List.idxOf_cons_ne _ hxa, List.idxOf_cons_ne _ hxb,
        Nat.succ_lt_succ_iff]

/-- Two members of a list without duplicates come in one order. -/
lemma sublist_pair_asymm (nodup : l.Nodup) (h : [a, b].Sublist l) : ¬ [b, a].Sublist l := by
  induction l with
  | nil => cases h
  | cons x rest ih =>
    obtain ⟨hx, nodup⟩ := List.nodup_cons.mp nodup
    intro k
    cases h with
    | cons_cons _ h =>
      cases k with
      | cons_cons _ _ => exact hx (List.singleton_sublist.mp h)
      | cons _ k => exact hx (k.subset (List.mem_cons_of_mem b List.mem_cons_self))
    | cons _ h =>
      cases k with
      | cons_cons _ _ => exact hx (h.subset (List.mem_cons_of_mem a List.mem_cons_self))
      | cons _ k => exact ih nodup h k

/-- Two members of a list with one more at its end are members of the list, or the second is that
one. -/
lemma pair_sublist_concat : [a, b].Sublist (l ++ [x]) ↔ [a, b].Sublist l ∨ (a ∈ l ∧ b = x) := by
  rw [← List.reverse_sublist, List.reverse_append]
  show [b, a].Sublist (x :: l.reverse) ↔ _
  rw [List.sublist_cons_iff, ← List.reverse_sublist, List.reverse_reverse]
  constructor
  · rintro (h | ⟨r, hr, h⟩)
    · exact .inl h
    · obtain ⟨rfl, rfl⟩ := List.cons.inj hr
      exact .inr ⟨List.mem_reverse.mp (List.singleton_sublist.mp h), rfl⟩
  · rintro (h | ⟨ha, rfl⟩)
    · exact .inl h
    · exact .inr ⟨[a], rfl, List.singleton_sublist.mpr (List.mem_reverse.mpr ha)⟩

/-- Two members come one after the other if their positions do. -/
lemma pair_sublist_iff :
    [y, x].Sublist l ↔ ∃ i j : Nat, j < i ∧ l[i]? = some x ∧ l[j]? = some y := by
  induction l with
  | nil => simp
  | cons z rest ih =>
    constructor
    · intro h
      cases h with
      | cons_cons _ h =>
        obtain ⟨i, hi⟩ := List.mem_iff_getElem?.mp (List.singleton_sublist.mp h)
        exact ⟨i + 1, 0, Nat.succ_pos i, hi, rfl⟩
      | cons _ h =>
        obtain ⟨i, j, less, hi, hj⟩ := ih.mp h
        exact ⟨i + 1, j + 1, Nat.succ_lt_succ less, hi, hj⟩
    · rintro ⟨i, j, less, hi, hj⟩
      cases i with
      | zero => cases less
      | succ i =>
        cases j with
        | zero =>
          cases hj
          exact (List.singleton_sublist.mpr (List.mem_of_getElem? (l := rest) hi)).cons_cons y
        | succ j => exact (ih.mpr ⟨i, j, Nat.lt_of_succ_lt_succ less, hi, hj⟩).cons z

/-- A pair that begins with no member of the first part is in the second. -/
lemma pair_sublist_append_right (hx : x ∉ l) (h : [x, y].Sublist (l ++ k)) : [x, y].Sublist k := by
  obtain ⟨u, v, huv, hu, hv⟩ := List.sublist_append_iff.mp h
  cases u with
  | nil =>
    rw [List.nil_append] at huv
    exact huv ▸ hv
  | cons z u =>
    obtain ⟨rfl, _⟩ := List.cons.inj huv
    exact absurd (hu.subset List.mem_cons_self) hx

/-- A pair that ends with no member of the second part is in the first. -/
lemma pair_sublist_append_left (hx : x ∉ k) (h : [y, x].Sublist (l ++ k)) : [y, x].Sublist l := by
  have back : [x, y].Sublist (k.reverse ++ l.reverse) := by
    rw [← List.reverse_append]
    exact List.reverse_sublist.mpr h
  exact List.reverse_sublist.mp
    (pair_sublist_append_right (fun hk => hx (List.mem_reverse.mp hk)) back)

/-- A list is put together again from its members by key. -/
lemma perm_flatMap_filter {α : Type} {f : α → LockNum} {keys : List LockNum} {l : List α}
    (nodup : keys.Nodup) (h : ∀ a ∈ l, f a ∈ keys) :
    (keys.flatMap fun k => l.filter fun a => f a = k).Perm l := by
  induction keys generalizing l with
  | nil =>
    have empty : l = [] := List.eq_nil_iff_forall_not_mem.mpr fun a ha => List.not_mem_nil (h a ha)
    rw [empty]
    exact .refl []
  | cons k rest ih =>
    obtain ⟨hk, nodup⟩ := List.nodup_cons.mp nodup
    have others : ∀ m ∈ rest, (l.filter fun a => f a = m) =
        (l.filter fun a => !decide (f a = k)).filter fun a => f a = m := by
      intro m hm
      rw [List.filter_filter]
      apply List.filter_congr
      intro a _
      by_cases e : f a = m
      · have hne : m ≠ k := by
          rintro rfl
          exact hk hm
        simp [e, hne]
      · simp [e]
    have left : ∀ a ∈ l.filter fun a => !decide (f a = k), f a ∈ rest := by
      intro a ha
      obtain ⟨ha, hne⟩ := List.mem_filter.mp ha
      exact (List.mem_cons.mp (h a ha)).resolve_left (by simpa using hne)
    rw [List.flatMap_cons, List.flatMap_congr others]
    exact ((ih nodup left).append_left _).trans (List.filter_append_perm _ l)

end Interlock
