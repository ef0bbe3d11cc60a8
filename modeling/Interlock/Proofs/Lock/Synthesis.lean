import Interlock.Proofs.Lock.History

/-!
# Avoidance locks that are synthesized

The serial number of a synthesized lock is the count of the locks that were synthesized before
(`nextSerial_history`). Keys of avoidance locks are keys like any other, so an operation may
introduce one by name before its serial number is due (`Introduced`), and there is no other way for
the next key to be in the table (`introduced_of_found`).

A synthesized lock is new and static exactly if its key was not introduced. If it was, the lock that
its key stands for is returned once more, whatever its kind (`locks_synthesized`).
-/

namespace Interlock.LockTable

variable {t : LockTable} {key k : LockKey} {n : LockNum} {owner : String}
  {ops before : List Operation}
  {op : Operation}

/-- The operation synthesizes a lock. -/
def Operation.isSynthesis : Operation → Bool
  | .synthesize _ => true
  | .registerStatic _ | .registerDynamic _ _ | .addAlias _ _ => false

/-- In the table, the operation lets a key that it names stand for a lock. -/
def Introduces (t : LockTable) (key : LockKey) : Operation → Prop
  | .registerStatic k | .registerDynamic k _ => k = key
  | .addAlias k n => k = key ∧ ∃ u, t.addAlias k n = .ok u
  | .synthesize _ => False

/-- One of the operations has let the key, by its name, stand for a lock. -/
def Introduced (ops : List Operation) (key : LockKey) : Prop :=
  ∃ before op, before ++ [op] <+: ops ∧ Introduces (history before).table key op

lemma Introduced.concat (h : Introduced ops key) : Introduced (ops ++ [op]) key := by
  obtain ⟨before, last, part, introduces⟩ := h
  exact ⟨before, last, part.trans (List.prefix_append _ _), introduces⟩

/-- An operation that introduces a key leaves it in the table. -/
lemma Introduces.found (h : t.Introduces key op) : ∃ n, (t.perform op).find? key = some n := by
  cases op with
  | registerStatic k =>
    obtain rfl : k = key := h
    exact ⟨_, find?_register.trans (if_pos rfl)⟩
  | registerDynamic k sites =>
    obtain rfl : k = key := h
    exact ⟨_, find?_register.trans (if_pos rfl)⟩
  | addAlias k m =>
    obtain ⟨rfl, u, hu⟩ := h
    rw [perform, hu]
    exact ⟨m, ((addAlias_eq_ok hu).found k).trans (if_pos rfl)⟩
  | synthesize owner => exact h.elim

/-- A registration brings in its key only. -/
lemma eq_of_find?_register {sign : Nat → LockNum} {sites : SortedSet String}
    (new : t.find? key = none) (hn : (t.register k sign sites).1.find? key = some n) : k = key := by
  rw [find?_register] at hn
  split at hn
  · rename_i e
    exact e.symm
  · rw [new] at hn
    cases hn

/-- A key that an operation has brought into the table is one that it introduces, or the next
one. -/
lemma introduces_of_found (new : t.find? key = none) (hn : (t.perform op).find? key = some n) :
    t.Introduces key op ∨ ∃ owner, op = .synthesize owner ∧ key = t.nextKey owner := by
  cases op with
  | registerStatic k => exact .inl (eq_of_find?_register new hn)
  | registerDynamic k sites => exact .inl (eq_of_find?_register new hn)
  | addAlias k m =>
    rw [perform] at hn
    cases hu : t.addAlias k m with
    | error f =>
      rw [hu] at hn
      cases new.symm.trans hn
    | ok u =>
      rw [hu] at hn
      have found := ((addAlias_eq_ok hu).found key).symm.trans hn
      split at found
      · rename_i e
        exact .inl ⟨e.symm, u, hu⟩
      · rw [new] at found
        cases found
  | synthesize owner =>
    rw [perform, find?_synthesize] at hn
    split at hn
    · rename_i e
      exact .inr ⟨owner, rfl, e⟩
    · rw [new] at hn
      cases hn

/-- Only a synthesis uses up a serial number. -/
lemma nextSerial_perform :
    (t.perform op).nextSerial = t.nextSerial + if op.isSynthesis then 1 else 0 := by
  cases op with
  | registerStatic k => exact nextSerial_register
  | registerDynamic k sites => exact nextSerial_register
  | addAlias k m =>
    rw [perform]
    cases hu : t.addAlias k m with
    | error f => rfl
    | ok u => exact (addAlias_eq_ok hu).nextSerial
  | synthesize owner => exact nextSerial_synthesize

/-- The next serial number is the count of the locks that were synthesized. -/
lemma nextSerial_history : (history ops).table.nextSerial = ops.countP Operation.isSynthesis := by
  induction ops using List.reverseRecOn with
  | nil => rfl
  | append_singleton ops op ih =>
    rw [history_concat, History.next, nextSerial_perform, ih, List.countP_append,
      List.countP_singleton]

/-- The key of an avoidance lock whose serial number is still to be given out is in the table only
if it was introduced. -/
lemma introduced_of_found {serial : Nat} (due : (history ops).table.nextSerial ≤ serial)
    (hn : (history ops).table.find? (.avoidance serial owner) = some n) :
    Introduced ops (.avoidance serial owner) := by
  induction ops using List.reverseRecOn with
  | nil => cases hn
  | append_singleton ops op ih =>
    rw [history_concat] at due hn
    have due : (history ops).table.nextSerial + (if op.isSynthesis then 1 else 0) ≤ serial :=
      nextSerial_perform ▸ due
    cases old : (history ops).table.find? (.avoidance serial owner) with
    | some m =>
      have found : (history ops).table.find? (.avoidance serial owner) = some n :=
        old.trans ((find?_perform_of_some old).symm.trans hn)
      exact (ih (Nat.le_of_add_right_le due) found).concat
    | none =>
      rcases introduces_of_found old hn with introduces | ⟨other, rfl, e⟩
      · exact ⟨ops, op, List.prefix_rfl, introduces⟩
      · -- the serial number that is used up is smaller
        simp only [nextKey, LockKey.avoidance.injEq] at e
        simp only [Operation.isSynthesis, if_true] at due
        omega

/-- A key that was introduced stands for a lock. -/
lemma Introduced.found (h : Introduced ops key) : ∃ n, (history ops).table.find? key = some n := by
  obtain ⟨before, op, part, introduces⟩ := h
  obtain ⟨n, hn⟩ := introduces.found
  refine ⟨n, find?_of_prefix part ?_⟩
  rw [history_concat]
  exact hn

/-- The key of the next avoidance lock of a class: its serial number is the count of the locks that
were synthesized. -/
def dueKey (ops : List Operation) (owner : String) : LockKey :=
  .avoidance (ops.countP Operation.isSynthesis) owner

lemma nextKey_history : (history ops).table.nextKey owner = dueKey ops owner := by
  rw [nextKey, nextSerial_history, dueKey]

/-- The next lock of a class is new and static. -/
structure Fresh (t : LockTable) (owner : String) : Prop where
  /-- The key stood for no lock. -/
  key : t.find? (t.synthesize owner).2.1 = none
  static : (t.synthesize owner).2.2.isStatic = true
  /-- No key stood for the lock. -/
  number : ∀ k, t.find? k ≠ some (t.synthesize owner).2.2

/-- A lock whose key is new is new itself, and static. -/
lemma Allocated.fresh (h : t.Allocated) (new : t.find? (t.nextKey owner) = none) : t.Fresh owner :=
  ⟨new, nextLock_isStatic_of_new new, fun _ => h.find?_ne_of_new new⟩

/-- What synthesizing a lock gives after operations. -/
structure Synthesizes (ops : List Operation) (owner : String) : Prop where
  key : ((history ops).table.synthesize owner).2.1 = dueKey ops owner
  /-- The lock is new and static exactly if its key was not introduced. -/
  fresh : (history ops).table.Fresh owner ↔ ¬ Introduced ops (dueKey ops owner)
  /-- If it was, the number that the key stands for is returned, and only the serial number is used
  up. -/
  old : Introduced ops (dueKey ops owner) → ∃ n,
  (history ops).table.find? (dueKey ops owner) = some n ∧
    (history ops).table.synthesize owner =
      ({ (history ops).table with nextSerial := (history ops).table.nextSerial + 1 },
        dueKey ops owner, n)

/-- Whatever the operations before were, a synthesized lock is new and static, or its key was
introduced by name. -/
theorem locks_synthesized (ops : List Operation) (owner : String) : Synthesizes ops owner := by
  constructor
  case key => exact nextKey_history
  case fresh =>
    rw [← nextKey_history]
    constructor
    · intro fresh introduced
      obtain ⟨n, hn⟩ := introduced.found
      exact absurd (fresh.key.symm.trans hn) nofun
    · intro unnamed
      refine booked_history.allocated.fresh (Option.eq_none_iff_forall_ne_some.mpr fun n hn => ?_)
      exact unnamed (introduced_of_found (Nat.le_refl _) hn)
  case old =>
    rw [← nextKey_history]
    intro introduced
    obtain ⟨n, hn⟩ := introduced.found
    exact ⟨n, hn, synthesize_of_some hn⟩

/-- The key of the first avoidance lock of a class is registered for a dynamic lock. The first lock
that is synthesized for the class is this one, so it is neither new nor static. -/
theorem synthesize_dynamic :
    (history [.registerDynamic (.avoidance 0 "C") .empty]).table.find? (.avoidance 0 "C") = some 1 ∧
      ((history [.registerDynamic (.avoidance 0 "C") .empty]).table.synthesize "C").2 =
        (.avoidance 0 "C", 1) ∧
      ¬ (history [.registerDynamic (.avoidance 0 "C") .empty]).table.Fresh "C" := by
  refine ⟨rfl, rfl, fun fresh => ?_⟩
  exact absurd fresh.static nofun

end Interlock.LockTable
