import Interlock.Yaml.Decode
import Mathlib.Algebra.Ring.Nat

/-!
# Numbers read back

A number is written without a base and without zeros before it, so a reader takes it for a number in
base ten, and its digits for the number (`Resolution.natural?_toDigits`).
-/

namespace Interlock.Yaml

variable {c : Char} {cs : List Char} {n k limit : ℕ}

/-! ## Numbers -/

namespace Resolution

lemma digit?_of_isDigit (h : c.isDigit) : digit? 10 c = some (c.toNat - '0'.toNat) := by
  have small : c.toNat - '0'.toNat < 10 := by
    simp only [Char.isDigit, Bool.and_eq_true, decide_eq_true_eq, UInt32.le_iff_toNat_le] at h
    simp only [Char.toNat]
    simp at h ⊢
    omega
  rw [digit?, Text.hexValue?, if_pos h, Option.filter_some, decide_eq_true small]
  rfl

lemma foldlM_digits (h : ∀ c ∈ cs, c.isDigit) :
    cs.foldlM (fun n c => (digit? 10 c).map (n * 10 + ·)) k = some (Nat.ofDigitChars 10 cs k) := by
  induction cs generalizing k with
  | nil => rfl
  | cons c cs ih =>
    obtain ⟨first, rest⟩ := List.forall_mem_cons.mp h
    rw [List.foldlM_cons, digit?_of_isDigit first, Nat.ofDigitChars_cons, Nat.mul_comm 10]
    exact ih rest

lemma isDigit_toDigits : ∀ c ∈ Nat.toDigits 10 n, c.isDigit :=
  fun _ => Nat.isDigit_of_mem_toDigits (by decide) (by decide)

lemma digits?_toDigits : digits? 10 (Nat.toDigits 10 n) = some n := by
  rw [digits?, if_neg (by simp [Nat.toDigits_ne_nil]), foldlM_digits isDigit_toDigits,
    Nat.ofDigitChars_ten_toDigits]

/-- Only zero starts with zero, and it has one digit. -/
lemma toDigits_of_zero (h : Nat.toDigits 10 n = '0' :: cs) : cs = [] := by
  induction n using Nat.strongRecOn generalizing cs with
  | ind n ih =>
    rcases Nat.lt_or_ge n 10 with small | large
    · rw [Nat.toDigits_of_lt_base small] at h
      exact (List.cons.inj h).2.symm
    · have positive : 0 < n / 10 := Nat.div_pos large (by decide)
      rw [Nat.toDigits_of_base_le (by decide) large] at h
      cases before : Nat.toDigits 10 (n / 10) with
      | nil => exact absurd before Nat.toDigits_ne_nil
      | cons d ds =>
        -- the digits before the last would be those of zero
        rw [before] at h
        obtain ⟨rfl, -⟩ := List.cons.inj h
        obtain rfl := ih (n / 10) (Nat.div_lt_self (by omega) (by decide)) before
        have zero := @Nat.ofDigitChars_ten_toDigits (n / 10)
        rw [before] at zero
        exact absurd zero.symm (Nat.ne_of_gt positive)

/-- Digits are the number that they are read as, if they have no zeros before them. -/
lemma magnitude?_digits (h : ∀ c ∈ cs, c.isDigit) (unpadded : ∀ ds, cs = '0' :: ds → ds = []) :
    magnitude? cs = digits? 10 cs := by
  cases cs with
  | nil => rfl
  | cons c cs =>
    by_cases zero : c = '0'
    · subst zero
      obtain rfl := unpadded cs rfl
      rfl
    · have digit := h c List.mem_cons_self
      have sign : c ≠ '+' ∧ c ≠ '-' := by
        constructor
        all_goals
          rintro rfl
          exact absurd digit (by decide)
      have base : base? (c :: cs) = none := by
        rw [base?]
        all_goals
          rintro rest same
          exact zero (List.cons.inj same).1
      have bare : dropSign (c :: cs) = c :: cs := by
        rw [dropSign]
        · exact fun rest same => sign.1 (List.cons.inj same).1
        · exact fun rest same => sign.2 (List.cons.inj same).1
      have padded : isPadded (c :: cs) = false := by
        rw [isPadded, bare]
        split
        · rename_i same
          exact absurd (List.cons.inj same).1 zero
        · rfl
      rw [magnitude?, base]
      dsimp only
      rw [padded]
      rfl

/-- A number below a limit is read as it is written. -/
theorem natural?_toDigits (h : n < limit) : natural? limit (Nat.toDigits 10 n) = some n := by
  have digits := @isDigit_toDigits n
  have read : magnitude? (Nat.toDigits 10 n) = some n :=
    (magnitude?_digits digits fun _ => toDigits_of_zero).trans digits?_toDigits
  rw [natural?, read, Option.filter_some, decide_eq_true h]
  · rfl
  · intro rest signed
    exact absurd (digits '+' (signed ▸ List.mem_cons_self)) (by decide)

end Resolution

namespace Node

lemma toList_number (n : ℕ) : (toString n).toList = Nat.toDigits 10 n := Nat.toList_repr

lemma natural?_number {limit n : ℕ} (h : n < limit) :
    natural? limit (.scalar none .plain (toString n).toList) = some n := by
  rw [toList_number]
  exact Resolution.natural?_toDigits h

lemma isNull_number (n : ℕ) : isNull (.scalar none .plain (toString n).toList) = false := by
  rw [toList_number]
  have digits := @Resolution.isDigit_toDigits n
  have nonempty := @Nat.toDigits_ne_nil n 10
  generalize Nat.toDigits 10 n = cs at digits nonempty ⊢
  cases cs with
  | nil => exact absurd rfl nonempty
  | cons c cs =>
    have digit := digits c List.mem_cons_self
    have other : ∀ w ∈ ["~", "null", "Null", "NULL"],
        w.toList.head?.any Char.isDigit = false := by decide
    refine decide_eq_false fun null => ?_
    have letter := other _ null
    rw [String.toList_ofList] at letter
    exact absurd (digit.symm.trans letter) (by decide)

end Node

end Interlock.Yaml
