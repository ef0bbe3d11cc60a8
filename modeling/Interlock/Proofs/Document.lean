import Interlock.Document
import Mathlib.Algebra.Ring.Nat
import Mathlib.Data.List.Forall2

/-!
# Records written and read

What is taken for granted of a library for documents is that it is faithful (`Library.Faithful`):
every scalar that it writes is read back as the same, in the place where it stood. No more is needed
to read a record from what was written of it. A record that is put together field by field is read
from the fields that it has been written with (`Fills.record?`).
-/

namespace Interlock.Document

/-! ## Values that are written -/

/-- A character of the names of fields and of numbers. -/
def isWordChar (c : Char) : Bool := c.isDigit || ('a' ≤ c && c ≤ 'z') || c = '_'

/-- A name or a number. -/
structure IsWord (cs : List Char) : Prop where
  nonempty : cs ≠ []
  chars : cs.all isWordChar

instance : DecidablePred IsWord := fun cs =>
  decidable_of_iff (cs ≠ [] ∧ cs.all isWordChar) ⟨fun h => ⟨h.1, h.2⟩, fun h => ⟨h.1, h.2⟩⟩

/-- A name that a field may have. -/
structure IsName (name : String) : Prop where
  word : IsWord name.toList
  short : name.toList.length ≤ 128

instance : DecidablePred IsName := fun name =>
  decidable_of_iff (IsWord name.toList ∧ name.toList.length ≤ 128)
    ⟨fun h => ⟨h.1, h.2⟩, fun h => ⟨h.1, h.2⟩⟩

/-- The value is made of the types that settings have: numbers of 64 bits, any texts, and records of one
field or more with different names. -/
inductive Writable : Value → Prop
  | truth (b : Bool) : Writable (.truth b)
  | number {n : ℕ} : n < 2 ^ 64 → Writable (.number n)
  | text (s : String) : Writable (.text s)
  | variant {name : String} : IsName name → Writable (.variant name)
  | texts (ss : List String) : Writable (.texts ss)
  | record {fields : List (String × Value)} : fields ≠ [] → (fields.map Prod.fst).Nodup →
    (∀ f ∈ fields, IsName f.1) → (∀ f ∈ fields, Writable f.2) → Writable (.record fields)

lemma Writable.field? {β : Type} {write : β → Value} {o : Option β} {name : String}
    (h : ∀ b ∈ o, Writable (write b)) : ∀ f ∈ field? name (o.map write), Writable f.2 := by
  cases o with
  | none => exact List.forall_mem_nil _
  | some b => exact List.forall_mem_singleton.mpr (h b rfl)

/-- A library reads back what it writes. That a node is what the library makes of a written value is
for the library to say (`spells`). -/
structure Library.Faithful (lib : Library) (spells : lib.Node → Value → Prop) : Prop where
  /-- A record is written, and its text is read. -/
  reads {fields : List (String × Value)} : Writable (.record fields) → ∃ text n,
    lib.write? fields = some text ∧ lib.read? text = some n ∧ spells n (.record fields)
  /-- What is written for a value is not taken for null. -/
  present {n : lib.Node} {v : Value} : spells n v → v ≠ .null → lib.isNull? n = some false
  truth {n : lib.Node} {b : Bool} : spells n (.truth b) → lib.truth? n = some b
  number {n : lib.Node} {k limit : ℕ} : spells n (.number k) → k < limit →
    lib.number? limit n = some k
  /-- A text that is written as a scalar is read back as the same text. -/
  text {n : lib.Node} {s : String} : spells n (.text s) → lib.text? n = some s
  variant {n : lib.Node} {name : String} : spells n (.variant name) → lib.variant? n = some name
  /-- A list is read with its items in order. -/
  texts {n : lib.Node} {ss : List String} : spells n (.texts ss) → ∃ items,
    lib.items? n = some items ∧ List.Forall₂ (fun i s => spells i (.text s)) items ss
  /-- A record is read with its fields in order. -/
  record {n : lib.Node} {fields : List (String × Value)} : spells n (.record fields) → ∃ members,
    lib.members? n = some members ∧
      List.Forall₂ (fun m f => lib.text? m.1 = some f.1 ∧ spells m.2 f.2) members fields

/-! ## Values -/

variable {lib : Library} {spells : lib.Node → Value → Prop} {α β R : Type} {n : lib.Node}

namespace Library.Faithful

variable (faithful : lib.Faithful spells) {v : Value} {decode : lib.Node → Option α} {a : α}

include faithful

/-- What is written for a value is there where it may be missing. -/
lemma optional? (h : spells n v) (given : v ≠ .null) (read : decode n = some a) :
    lib.optional? decode n = some (some a) := by
  rw [Library.optional?, faithful.present h given, read]
  rfl

lemma oneOf? {values : List (String × α)} {name : String} (h : spells n (.variant name))
    (found : values.lookup name = some a) : lib.oneOf? values n = some a := by
  rw [Library.oneOf?, faithful.variant h]
  exact found

lemma texts? {ss : List String} (h : spells n (.texts ss)) : lib.texts? n = some ss := by
  obtain ⟨items, found, spelled⟩ := faithful.texts h
  rw [Library.texts?, found]
  change items.mapM lib.text? = some ss
  clear found h
  induction spelled with
  | nil => rfl
  | cons first _ ih =>
    rw [List.mapM_cons, faithful.text first, ih]
    rfl

end Library.Faithful

/-! ## Records -/

variable {put : R → String → lib.Node → Option R} {name : String} {names seen : List String}
  {fields : List (String × Value)} {p q : R}

/-- The fields come in the order of the names, and what is written for them takes one state of the
record to another. -/
inductive Fills (spells : lib.Node → Value → Prop) (put : R → String → lib.Node → Option R) :
    List String → R → List (String × Value) → R → Prop
  | nil (p : R) : Fills spells put [] p [] p
  | leave (name : String) {names : List String} {p q : R} {fields : List (String × Value)} :
    Fills spells put names p fields q → Fills spells put (name :: names) p fields q
  | put {name : String} {names : List String} {p q r : R} {v : Value}
      {fields : List (String × Value)} :
    (∀ n, spells n v → put p name n = some q) → Fills spells put names q fields r →
      Fills spells put (name :: names) p ((name, v) :: fields) r

namespace Fills

/-- A field that is set or not. -/
lemma field? {write : β → Value} {read : lib.Node → Option (Option β)} {o : Option β}
    {set : Option β → R} (h : ∀ b ∈ o, ∀ n, spells n (write b) → read n = some (some b))
    (field : ∀ n, put p name n = (read n).map set) (unset : set none = p)
    (rest : Fills spells put names (set o) fields q) :
    Fills spells put (name :: names) p (Document.field? name (o.map write) ++ fields) q := by
  cases o with
  | none => exact .leave name (unset ▸ rest)
  | some b =>
    refine .put (fun n spelled => ?_) rest
    rw [field, h b rfl n spelled]
    rfl

/-- Without fields the record stays as it is. -/
lemma eq_of_nil (h : Fills spells put names p [] q) : q = p := by
  generalize empty : [] = fields at h
  induction h with
  | nil p => rfl
  | leave name _ ih => exact ih empty
  | put _ _ => exact absurd empty (List.cons_ne_nil _ _).symm

/-- The fields have names in the order in which they are asked for. -/
lemma sublist (h : Fills spells put names p fields q) : (fields.map Prod.fst).Sublist names := by
  induction h with
  | nil p => exact .slnil
  | leave name _ ih => exact ih.cons name
  | put _ _ ih => exact ih.cons_cons _

lemma nodup (h : Fills spells put names p fields q) (once : names.Nodup) :
    (fields.map Prod.fst).Nodup :=
  once.sublist h.sublist

lemma forall_name {P : String → Prop} (h : Fills spells put names p fields q)
    (named : ∀ name ∈ names, P name) : ∀ f ∈ fields, P f.1 :=
  fun _ hf => named _ (h.sublist.subset (List.mem_map_of_mem hf))

lemma putMembers? {members : List (lib.Node × lib.Node)} (h : Fills spells put names p fields q)
    (once : names.Nodup) (fresh : names.Disjoint seen)
    (spelled : List.Forall₂ (fun m f => lib.text? m.1 = some f.1 ∧ spells m.2 f.2) members fields) :
    lib.putMembers? put seen p members = some q := by
  induction h generalizing seen members with
  | nil p =>
    cases spelled
    rfl
  | leave name _ ih => exact ih once.of_cons (List.disjoint_of_disjoint_cons_left fresh) spelled
  | @put name names p q r v fields hp _ ih =>
    obtain ⟨new, once⟩ := List.nodup_cons.mp once
    obtain ⟨unseen, fresh⟩ := List.disjoint_cons_left.mp fresh
    cases spelled with
    | cons first spelled =>
      have later := ih once (List.disjoint_cons_right.mpr ⟨new, fresh⟩) spelled
      rw [Library.putMembers?, first.1]
      simp only [Option.bind_eq_bind, Option.bind_some, if_neg unseen, hp _ first.2]
      exact later

/-- A record that its fields fill is read from what was written for them. -/
theorem record? (h : Fills spells put names p fields q) (once : names.Nodup)
    (faithful : lib.Faithful spells) (spelled : spells n (.record fields)) :
    lib.record? put p n = some q := by
  obtain ⟨members, found, each⟩ := faithful.record spelled
  rw [Library.record?, found]
  exact h.putMembers? once (List.disjoint_nil_right _) each

end Fills

end Interlock.Document
