import Interlock.Json.Decode
import Interlock.Proofs.Json.Reading
import Mathlib.Data.List.Nodup

/-!
# Decoders of written values

What a decoder makes of a value that has been written. Numbers of 64 bits, strings, lists, and
records whose members are written in the order of the fields are decoded as what they were written
for.
-/

namespace Interlock.Json

/-! ## Numbers -/

namespace Numeral

lemma le_foldl_digits (ds : List ℕ) (n : ℕ) : n ≤ ds.foldl (fun n d => n * 10 + d) n := by
  induction ds generalizing n with
  | nil => exact Nat.le_refl n
  | cons d ds ih => exact Nat.le_trans (by omega) (ih (n * 10 + d))

/-- Digits are taken up as long as the significand fits. -/
lemma takeDigits_of_lt {ds : List ℕ} {n : ℕ} (h : ds.foldl (fun n d => n * 10 + d) n < wordLimit) :
    takeDigits n ds = (ds.foldl (fun n d => n * 10 + d) n, 0) := by
  induction ds generalizing n with
  | nil => rfl
  | cons d ds ih =>
    rw [takeDigits, if_pos (Nat.lt_of_le_of_lt (le_foldl_digits ds _) h)]
    exact ih h

lemma digitsValue_digitsOf (n : ℕ) : digitsValue (digitsOf n).reverse = n := by
  rw [digitsValue, List.foldl_reverse, digitsOf]
  split_ifs with zero
  · exact zero.symm
  · calc (Nat.digits 10 n).foldr (fun d n => n * 10 + d) 0
      _ = Nat.ofDigits 10 (Nat.digits 10 n) := by
        rw [Nat.ofDigits_eq_foldr]
        congr 1
        funext d n
        rw [Nat.mul_comm, Nat.add_comm, Nat.cast_id]
      _ = n := Nat.ofDigits_digits 10 n

lemma takeDigits_digitsOf {n : ℕ} (h : n < wordLimit) :
    takeDigits 0 (digitsOf n).reverse = (n, 0) := by
  have value := digitsValue_digitsOf n
  rw [digitsValue] at value
  rw [takeDigits_of_lt (value.symm ▸ h), value]

/-- A whole number of 64 bits is read as it is written. -/
theorem number?_ofWhole {i : ℤ} (low : -Nat.pow 2 63 ≤ i) (high : i < wordLimit) :
    (ofWhole i).number? = some (.whole i) := by
  cases i with
  | ofNat n =>
    rw [number?, ofWhole, takeDigits_digitsOf (Int.ofNat_lt.mp high)]
    rfl
  | negSucc n =>
    have le : n + 1 ≤ Nat.pow 2 63 := by omega
    have lt : n + 1 < wordLimit := Nat.lt_of_le_of_lt le (by decide)
    rw [number?, ofWhole, takeDigits_digitsOf lt]
    dsimp only
    rw [if_pos rfl, if_neg (by decide), if_pos ⟨n.succ_pos, le⟩]
    rfl

end Numeral

namespace Value

lemma itemDrafts_eq_map (l : List Value) : itemDrafts l = l.map draft := by
  induction l with
  | nil => rfl
  | cons v l ih => rw [itemDrafts, List.map_cons, ih]

end Value

namespace Decode

/-- The decoder reads the value as the given one. -/
def Reads {α : Type} (decoder : Decoder α) (v : Value) (a : α) : Prop := decoder v.draft = .ok a

variable {α R : Type} {decoder : Decoder α} {v : Value} {a : α}

/-- A text that is written for a value is decoded like the value. -/
theorem document_render (h : Reads decoder v a) : document decoder v.render = .ok a := by
  rw [document, Document.ofText_render, h]
  rfl

namespace Reads

lemma text (s : String) : Reads string (.text s) s := rfl

lemma wholeIn {low high i : ℤ} (expected : String)
    (fits : -Nat.pow 2 63 ≤ low ∧ high < Numeral.wordLimit)
    (h : low ≤ i ∧ i ≤ high) : Reads (Decode.wholeIn low high expected) (.whole i) i := by
  have number := Numeral.number?_ofWhole (fits.1.trans h.1) (h.2.trans_lt fits.2)
  rw [Reads, Value.draft, Decode.wholeIn, number]
  exact if_pos h

lemma size {n : ℕ} (h : n < 2 ^ 64) : Reads Decode.size (.whole n) n := by
  have le : (n : ℤ) ≤ (Nat.pow 2 64 - 1 : Nat) := Nat.cast_le.mpr (Nat.le_sub_one_of_lt h)
  have whole := wholeIn "usize" ⟨by decide, by decide⟩ ⟨Int.natCast_nonneg n, le⟩
  exact congrArg (Except.map Int.toNat) whole

lemma optional (h : Reads decoder v a) (present : v ≠ .null) :
    Reads (Decode.optional decoder) v (some a) := by
  rw [Reads] at h
  cases v with
  | null => exact absurd rfl present
  | _ => exact congrArg (Except.map some) h

lemma list {write : α → Value} {l : List α} (h : ∀ a ∈ l, Reads decoder (write a) a) :
    Reads (Decode.list decoder) (.array (l.map write)) l := by
  rw [Reads, Value.draft, Decode.list, Value.itemDrafts_eq_map]
  induction l with
  | nil => rfl
  | cons a l ih =>
    have first : decoder (write a).draft = .ok a := h a List.mem_cons_self
    have rest := ih fun b hb => h b (List.mem_cons_of_mem a hb)
    rw [List.map_cons, List.map_cons, items, first, rest]
    rfl

lemma texts (l : List String) : Reads (Decode.list string) (.texts l) l := list fun s _ => text s

end Reads

/-! ## Records -/

namespace Record

variable {r : Record R}

/-- The members are values of fields, in the order of the fields, and take one state of the record
to another. -/
inductive Fills (r : Record R) : List String → R → List (String × Value) → R → Prop
  | nil (names : List String) (p : R) : Fills r names p [] p
  | leave (name : String) {names : List String} {p q : R} {ms : List (String × Value)} :
    Fills r names p ms q → Fills r (name :: names) p ms q
  | put {name : String} {names : List String} {p q s : R} {v : Value} {ms : List (String × Value)} :
    r.put p name v.draft = .ok q → Fills r names q ms s →
    Fills r (name :: names) p ((name, v) :: ms) s

namespace Fills

variable {name : String} {names : List String} {p q : R} {ms : List (String × Value)}

/-- A value that the decoder of its field reads. -/
lemma field {set : α → R} (h : Reads decoder v a)
    (put : ∀ d, r.put p name d = do return set (← decoder d))
    (rest : r.Fills names (set a) ms q) : r.Fills (name :: names) p ((name, v) :: ms) q := by
  have read : decoder v.draft = .ok a := h
  refine .put ?_ rest
  rw [put, read]
  rfl

/-- A value that may be left out. -/
lemma field? {β : Type} {decoder : Decoder (Option β)} {write : β → Value} {o : Option β}
    {set : Option β → R} (h : ∀ b ∈ o, Reads decoder (write b) (some b))
    (put : ∀ d, r.put p name d = do return set (← decoder d))
    (empty : set none = p) (rest : r.Fills names (set o) ms q) :
    r.Fills (name :: names) p (Value.member? name (o.map write) ++ ms) q := by
  cases o with
  | none => exact .leave name (empty ▸ rest)
  | some b => exact .field (h b rfl) put rest

end Fills

variable {names seen : List String} {p q : R} {ms : List (String × Value)}

/-- A field that is met for the first time is put into the record. -/
lemma members_cons {name : String} {d : Draft} {rest : List (Draft × Draft)} {stop : Option Halt}
    (known : name ∈ r.names) (fresh : name ∉ seen) (put : r.put p name d = .ok q) :
    r.members ((.text name, d) :: rest) stop seen p = r.members rest stop (name :: seen) q := by
  rw [members, if_pos (List.contains_iff_mem.mpr known), if_neg (mt List.contains_iff_mem.mp fresh),
    put]
  rfl

lemma Fills.members (h : r.Fills names p ms q) (known : names ⊆ r.names) (once : names.Nodup)
    (fresh : names.Disjoint seen) : r.members (Value.memberDrafts ms) none seen p = .ok q := by
  induction h generalizing seen with
  | nil names p => rfl
  | leave name _ ih =>
    exact ih (List.cons_subset.mp known).2 once.of_cons (List.disjoint_of_disjoint_cons_left fresh)
  | @put name names p q s v ms hp _ ih =>
    obtain ⟨new, once⟩ := List.nodup_cons.mp once
    obtain ⟨known, more⟩ := List.cons_subset.mp known
    obtain ⟨unseen, fresh⟩ := List.disjoint_cons_left.mp fresh
    rw [Value.memberDrafts, members_cons known unseen hp]
    exact ih more once (List.disjoint_cons_right.mpr ⟨new, fresh⟩)

/-- An object that is written with the fields in order is decoded into the record that its members
fill. -/
theorem Fills.reads (h : r.Fills r.names p ms q) (once : r.names.Nodup) :
    Reads (r.decode p) (.object ms) q :=
  h.members (List.Subset.refl _) once (List.disjoint_nil_right _)

end Record

end Decode

end Interlock.Json
