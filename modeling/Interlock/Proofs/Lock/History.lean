import Interlock.Proofs.Lock.Table
import Mathlib.Data.List.Induction

/-!
# The numbers that a lock table has given out

`LockTable.history` runs operations from the empty table on and keeps the numbers that registrations
have returned. A slot is found by the absolute value of a number, so a number counts as given out if
it or its negative was returned (`History.Booked`), and a key may be added for the negative of a
lock's number. The slot then belongs to a static lock and to a dynamic one.

There is no other way to this: the slots of a table belong to locks of one kind each
(`LockTable.OneKind`) exactly if every key that was added for a lock was added by a number that had
been returned (`LockTable.numbers_accounted`).
-/

namespace Interlock.LockTable

variable {t u : LockTable} {key k : LockKey} {sign : Nat → LockNum}
  {sites : SortedSet String} {n : LockNum}

/-! ## Histories -/

/-- An operation on a lock table. -/
inductive Operation where
  | registerStatic (key : LockKey)
  | registerDynamic (key : LockKey) (sites : SortedSet String)
  | addAlias (key : LockKey) (n : LockNum)
  | synthesize (owner : String)
deriving DecidableEq

/-- The table after an operation. One that fails leaves the table as it is. -/
def perform (t : LockTable) : Operation → LockTable
  | .registerStatic key => (t.registerStatic key).1
  | .registerDynamic key sites => (t.registerDynamic key sites).1
  | .addAlias key n => (t.addAlias key n).toOption.getD t
  | .synthesize owner => (t.synthesize owner).1

/-- The number that an operation returns, where it registers a lock. -/
def returned? (t : LockTable) : Operation → Option LockNum
  | .registerStatic key => some (t.registerStatic key).2
  | .registerDynamic key sites => some (t.registerDynamic key sites).2
  | .addAlias _ _ => none
  | .synthesize owner => some (t.synthesize owner).2.2

/-- A table, and the numbers that registrations have returned on the way to it. -/
structure History where
  table : LockTable := .empty
  returned : List LockNum := []

/-- The history after one more operation. -/
def History.next (h : History) (op : Operation) : History where
  table := h.table.perform op
  returned := h.returned ++ (h.table.returned? op).toList

/-- The history of the operations from the empty table on. -/
def history (ops : List Operation) : History := ops.foldl History.next {}

variable {ops before : List Operation} {op : Operation} {h : History}

lemma history_concat : history (ops ++ [op]) = (history ops).next op := by
  rw [history, List.foldl_append]
  rfl

/-- A key keeps its number through an operation. -/
lemma find?_perform_of_some (hn : t.find? k = some n) : (t.perform op).find? k = some n := by
  cases op with
  | registerStatic key => exact find?_register_of_some hn
  | registerDynamic key sites => exact find?_register_of_some hn
  | addAlias key m =>
    rw [perform]
    cases hu : t.addAlias key m with
    | error f => exact hn
    | ok u => exact (addAlias_eq_ok hu).keeps hn
  | synthesize owner => exact find?_synthesize_of_some hn

/-- A key keeps its number through whatever comes later. -/
lemma find?_of_prefix (later : before <+: ops) (hn : (history before).table.find? k = some n) :
    (history ops).table.find? k = some n := by
  induction ops using List.reverseRecOn with
  | nil =>
    rw [List.prefix_nil.mp later] at hn
    exact hn
  | append_singleton ops op ih =>
    rcases List.prefix_concat_iff.mp later with rfl | later
    · exact hn
    · rw [history_concat]
      exact find?_perform_of_some (ih later)

/-- The slots of the table are those of the numbers that were returned. -/
structure History.Booked (h : History) : Prop where
  /-- Every number in the table has a slot. -/
  allocated : h.table.Allocated
  /-- Every slot was taken for a number that was returned. -/
  slots : ∀ n, h.table.isAllocated n = true → n ∈ h.returned ∨ -n ∈ h.returned
  /-- Some key stands for each number that was returned. -/
  keyed : ∀ n ∈ h.returned, ∃ key, h.table.find? key = some n

namespace History.Booked

/-- A registration takes a slot at most, and returns its number. -/
lemma register (b : h.Booked) (hs : ∀ slot, sign slot = (slot : Int) ∨ sign slot = -(slot : Int)) :
    Booked ⟨(h.table.register key sign sites).1,
      h.returned ++ [(h.table.register key sign sites).2]⟩ := by
  refine ⟨b.allocated.register hs, ?_, ?_⟩
  · intro n hn
    simp only [List.mem_append, List.mem_singleton]
    cases found : h.table.find? key with
    | some m =>
      rw [register_old found] at hn
      rcases b.slots n hn with hn | hn
      · exact .inl (.inl hn)
      · exact .inr (.inl hn)
    | none =>
      rw [isAllocated_iff, slotCount_register found] at hn
      rcases Nat.lt_succ_iff_lt_or_eq.mp hn.2 with old | last
      · rcases b.slots n (isAllocated_iff.mpr ⟨hn.1, old⟩) with hn | hn
        · exact .inl (.inl hn)
        · exact .inr (.inl hn)
      · -- the last slot is the one that was just taken
        rw [register_new found]
        have either : n = (h.table.slotCount : Int) ∨ n = -(h.table.slotCount : Int) :=
          Int.natAbs_eq_iff.mp last
        rcases hs h.table.slotCount with e | e <;> rcases either with rfl | rfl <;> simp [e]
  · intro n hn
    rcases List.mem_append.mp hn with hn | hn
    · obtain ⟨k, hk⟩ := b.keyed n hn
      exact ⟨k, find?_register_of_some hk⟩
    · rw [List.mem_singleton.mp hn]
      exact ⟨key, find?_register.trans (if_pos rfl)⟩

/-- A key that is added takes no slot. -/
lemma addAlias (b : h.Booked) (hu : h.table.addAlias key n = .ok u) : Booked ⟨u, h.returned⟩ := by
  have named := addAlias_eq_ok hu
  refine ⟨b.allocated.addAlias hu, ?_, ?_⟩
  · intro m hm
    exact b.slots m ((isAllocated_congr named.slots).symm.trans hm)
  · intro m hm
    obtain ⟨k, hk⟩ := b.keyed m hm
    exact ⟨k, named.keeps hk⟩

lemma next (b : h.Booked) : (h.next op).Booked := by
  cases op with
  | registerStatic key => exact b.register fun slot => .inr rfl
  | registerDynamic key sites => exact b.register fun slot => .inl rfl
  | addAlias key n =>
    unfold History.next
    simp only [perform, returned?, Option.toList_none, List.append_nil]
    cases hu : h.table.addAlias key n with
    | error f => exact b
    | ok u => exact b.addAlias hu
  | synthesize owner =>
    have serial : Booked ⟨{ h.table with nextSerial := h.table.nextSerial + 1 }, h.returned⟩ :=
      ⟨b.allocated, b.slots, b.keyed⟩
    exact serial.register fun slot => .inr rfl

/-- A number that was returned has a slot. -/
lemma isAllocated (b : h.Booked) (hn : n ∈ h.returned) : h.table.isAllocated n = true := by
  obtain ⟨key, hk⟩ := b.keyed n hn
  exact b.allocated hk

end History.Booked

lemma booked_history : (history ops).Booked := by
  induction ops using List.reverseRecOn with
  | nil =>
    refine ⟨nofun, ?_, nofun⟩
    intro n hn
    obtain ⟨used, less⟩ := isAllocated_iff.mp hn
    exact absurd (Int.natAbs_eq_zero.mp (Nat.lt_one_iff.mp less)) used
  | append_singleton ops op ih =>
    rw [history_concat]
    exact ih.next

/-! ## One kind for each slot -/

/-- No slot belongs to a static lock and to a dynamic one. -/
def OneKind (t : LockTable) : Prop := ∀ ⦃key k n⦄, t.find? key = some n → t.find? k ≠ some (-n)

/-- Keys were added only for numbers that a registration before had returned. -/
def Faithful (ops : List Operation) : Prop :=
  ∀ ⦃before key n u⦄, before ++ [.addAlias key n] <+: ops →
    (history before).table.addAlias key n = .ok u → n ∈ (history before).returned

lemma Faithful.of_concat (faithful : Faithful (ops ++ [op])) : Faithful ops :=
  fun _ _ _ _ later => faithful (later.trans (List.prefix_append _ _))

/-- Numbers of one sign each were returned, and the table has no others. -/
structure History.Signed (h : History) : Prop where
  found : ∀ ⦃key n⦄, h.table.find? key = some n → n ∈ h.returned
  sign : ∀ ⦃n⦄, n ∈ h.returned → -n ∉ h.returned

namespace History.Signed

/-- The signs stay apart, since a slot that is taken was not given out before. -/
lemma register (s : h.Signed) (b : h.Booked)
    (hs : ∀ slot, sign slot = (slot : Int) ∨ sign slot = -(slot : Int)) :
    Signed ⟨(h.table.register key sign sites).1,
      h.returned ++ [(h.table.register key sign sites).2]⟩ := by
  constructor
  · intro k n hn
    rw [find?_register] at hn
    split at hn
    · cases hn
      exact List.mem_append_right _ (List.mem_singleton_self _)
    · exact List.mem_append_left _ (s.found hn)
  · cases found : h.table.find? key with
    | some m =>
      rw [register_old found]
      have same : ∀ n, n ∈ h.returned ++ [m] ↔ n ∈ h.returned := by
        intro n
        rw [List.mem_append, List.mem_singleton, or_iff_left_iff_imp]
        rintro rfl
        exact s.found found
      intro n hn
      rw [same] at hn ⊢
      exact s.sign hn
    | none =>
      rw [register_new found]
      have fresh : ∀ n ∈ h.returned, n.natAbs ≠ h.table.slotCount :=
        fun n hn => Nat.ne_of_lt (isAllocated_iff.mp (b.isAllocated hn)).2
      have last : (sign h.table.slotCount).natAbs = h.table.slotCount := by
        rcases hs h.table.slotCount with e | e <;> simp [e]
      intro n hn
      simp only [List.mem_append, List.mem_singleton] at hn ⊢
      rintro (old | new)
      · rcases hn with hn | rfl
        · exact s.sign hn old
        · exact fresh _ old (by rw [Int.natAbs_neg, last])
      · rcases hn with hn | rfl
        · exact fresh n hn (by rw [← Int.natAbs_neg, new, last])
        · -- a number that is its own negative is zero, and no slot is
          have zero : ∀ m : Int, -m = m → m.natAbs = 0 := by omega
          exact absurd (last.symm.trans (zero _ new)) (Nat.succ_ne_zero _)

lemma addAlias (s : h.Signed) (hu : h.table.addAlias key n = .ok u) (hn : n ∈ h.returned) :
    Signed ⟨u, h.returned⟩ := by
  refine ⟨?_, s.sign⟩
  intro k m hm
  rw [(addAlias_eq_ok hu).found] at hm
  split at hm
  · cases hm
    exact hn
  · exact s.found hm

end History.Signed

/-- Where keys were added for returned numbers only, the signs are kept apart. -/
lemma Faithful.signed (faithful : Faithful ops) : (history ops).Signed := by
  induction ops using List.reverseRecOn with
  | nil => exact ⟨nofun, nofun⟩
  | append_singleton ops op ih =>
    have s := ih faithful.of_concat
    rw [history_concat]
    cases op with
    | registerStatic key => exact s.register booked_history fun slot => .inr rfl
    | registerDynamic key sites => exact s.register booked_history fun slot => .inl rfl
    | addAlias key n =>
      unfold History.next
      simp only [perform, returned?, Option.toList_none, List.append_nil]
      cases hu : (history ops).table.addAlias key n with
      | error f => exact s
      | ok u => exact s.addAlias hu (faithful List.prefix_rfl hu)
    | synthesize owner =>
      have b : (history ops).Booked := booked_history
      have serial : History.Signed
          ⟨{ (history ops).table with nextSerial := (history ops).table.nextSerial + 1 },
            (history ops).returned⟩ := ⟨s.found, s.sign⟩
      exact serial.register ⟨b.allocated, b.slots, b.keyed⟩ fun slot => .inr rfl

/-- A key that was added for the negative of a returned number leaves a slot with locks of both
kinds. -/
lemma OneKind.faithful (one : (history ops).table.OneKind) : Faithful ops := by
  intro before key n u later hu
  have table : (history (before ++ [.addAlias key n])).table = u := by
    rw [history_concat, History.next, perform, hu]
    rfl
  have named := addAlias_eq_ok hu
  rcases booked_history.slots n named.given with hn | hn
  · exact hn
  · obtain ⟨k, hk⟩ := booked_history.keyed _ hn
    have added : (history ops).table.find? key = some n := by
      apply find?_of_prefix later
      rw [table, named.found, if_pos rfl]
    have opposite : (history ops).table.find? k = some (-n) := by
      apply find?_of_prefix later
      rw [table]
      exact named.keeps hk
    exact absurd opposite (one added)

/-- How the numbers of a table are accounted for by those that registrations returned. -/
structure Accounted (ops : List Operation) : Prop where
  /-- A key is added only for a number that was returned, or for the negative of one. -/
  added : ∀ ⦃key n u⦄, (history ops).table.addAlias key n = .ok u →
    n ∈ (history ops).returned ∨ -n ∈ (history ops).returned
  /-- The same holds of the number that a key stands for. -/
  found : ∀ ⦃key n⦄, (history ops).table.find? key = some n →
    n ∈ (history ops).returned ∨ -n ∈ (history ops).returned
  /-- Slots belong to locks of one kind exactly if keys were added for returned numbers only. -/
  oneKind : (history ops).table.OneKind ↔ Faithful ops
  /-- In that case every key stands for a number that was returned. -/
  returned : Faithful ops → ∀ ⦃key n⦄, (history ops).table.find? key = some n →
    n ∈ (history ops).returned

/-- The numbers of every table are accounted for. -/
theorem numbers_accounted (ops : List Operation) : Accounted ops := by
  have b : (history ops).Booked := booked_history
  constructor
  · intro key n u hu
    exact b.slots n (addAlias_eq_ok hu).given
  · intro key n hn
    exact b.slots n (b.allocated hn)
  · refine ⟨OneKind.faithful, ?_⟩
    intro faithful key k n hn hk
    exact faithful.signed.sign (faithful.signed.found hn) (faithful.signed.found hk)
  · intro faithful
    exact faithful.signed.found

/-- A key is added for the negative of the only number that was returned, and slot one belongs to a
dynamic lock and to a static one. -/
theorem slot_of_both_kinds :
    (history [.registerDynamic (.value "a") .empty]).returned = [1] ∧
      ∃ u, (history [.registerDynamic (.value "a") .empty]).table.addAlias (.value "b")
        (-1) = .ok u ∧
        u.find? (.value "a") = some 1 ∧ u.find? (.value "b") = some (-1) ∧ ¬ u.OneKind := by
  refine ⟨rfl, _, rfl, rfl, rfl, ?_⟩
  intro one
  exact absurd rfl (@one (.value "a") (.value "b") 1 rfl)

end Interlock.LockTable
