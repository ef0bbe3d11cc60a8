import Interlock.Lock.Table
import Mathlib.Tactic.Common

/-!
# The lock table as it grows

What `LockTable.register` and `LockTable.synthesize` do to the numbers of keys: a key that has a
number keeps it, and the registered key has the number that is returned. Where no avoidance lock
with a serial number to come is in the table (`SerialsFree`), a synthesized lock is static and its
key is new, and the same holds of the table that is left.

Every table that the operations build has given out the numbers that are in it
(`Reached.allocated`). In such a table the number of a synthesized lock is new as well
(`Allocated.find?_ne_nextLock`).
-/

namespace Interlock.LockTable

variable {t u : LockTable} {key k : LockKey} {sign : Nat → LockNum} {sites : SortedSet String}
  {owner : String} {n : LockNum}

/-- The table has no avoidance lock whose serial number is still to be given out. -/
def SerialsFree (t : LockTable) : Prop :=
  ∀ serial owner, t.nextSerial ≤ serial → t.find? (.avoidance serial owner) = none

/-- Registering changes the number of no other key. -/
lemma find?_register :
    (t.register key sign sites).1.find? k =
      if k = key then some (t.register key sign sites).2 else t.find? k := by
  unfold register
  cases h : t.find? key with
  | some n =>
    by_cases hk : k = key
    · simp [hk, h]
    · simp [hk]
  | none =>
    by_cases hk : k = key
    · simp [hk, find?]
    · simp [hk, find?, List.lookup_cons, beq_eq_false_iff_ne.mpr hk]

lemma register_old {n : LockNum} (h : t.find? key = some n) :
    t.register key sign sites = (t, n) := by
  unfold register
  rw [h]

/-- A registered key keeps the number that it has. -/
lemma find?_register_of_some (h : t.find? k = some n) :
    (t.register key sign sites).1.find? k = some n := by
  rw [find?_register]
  split
  · rename_i e
    subst e
    rw [register_old h]
  · exact h

/-- A key without a number gets that of the next slot. -/
lemma register_new (h : t.find? key = none) :
    (t.register key sign sites).2 = sign t.slotCount := by
  unfold register
  rw [h]

lemma nextSerial_register : (t.register key sign sites).1.nextSerial = t.nextSerial := by
  unfold register
  split <;> rfl

/-- The key of the next avoidance lock of a class. -/
def nextKey (t : LockTable) (owner : String) : LockKey := .avoidance t.nextSerial owner

/-- The number of the next avoidance lock of a class. -/
def nextLock (t : LockTable) (owner : String) : LockNum := (t.synthesize owner).2.2

/-- A synthesized lock is registered with the next key, after its serial number is used up. -/
lemma synthesize_eq :
    t.synthesize owner =
      (let r := register { t with nextSerial := t.nextSerial + 1 } (t.nextKey owner)
        (fun slot => -(slot : Int)) .empty
      (r.1, t.nextKey owner, r.2)) :=
  rfl

/-- The synthesized key has the number that is returned, and no other number changes. -/
lemma find?_synthesize :
    (t.synthesize owner).1.find? k =
      if k = t.nextKey owner then some (t.nextLock owner) else t.find? k := by
  rw [nextLock, synthesize_eq]
  exact find?_register

lemma nextSerial_synthesize : (t.synthesize owner).1.nextSerial = t.nextSerial + 1 := by
  rw [synthesize_eq]
  exact nextSerial_register

/-- A number that was given out stays with its key. -/
lemma find?_synthesize_of_some (h : t.find? k = some n) :
    (t.synthesize owner).1.find? k = some n := by
  rw [synthesize_eq]
  exact find?_register_of_some (t := { t with nextSerial := t.nextSerial + 1 }) h

/-- The next key of a table with free serial numbers is new. -/
lemma SerialsFree.find?_nextKey (h : t.SerialsFree) : t.find? (t.nextKey owner) = none :=
  h _ _ (Nat.le_refl _)

/-- Where the next key stands for a lock, only the serial number is used up. -/
lemma synthesize_of_some (h : t.find? (t.nextKey owner) = some n) :
    t.synthesize owner = ({ t with nextSerial := t.nextSerial + 1 }, t.nextKey owner, n) := by
  rw [synthesize_eq]
  dsimp only
  rw [register_old (t := { t with nextSerial := t.nextSerial + 1 }) h]

/-- A next lock whose key is new gets the next slot. -/
lemma nextLock_of_new (new : t.find? (t.nextKey owner) = none) :
    t.nextLock owner = -(t.slotCount : Int) := by
  rw [nextLock, synthesize_eq]
  exact register_new (t := { t with nextSerial := t.nextSerial + 1 }) new

/-- A next lock whose key is new is static. -/
lemma nextLock_isStatic_of_new (new : t.find? (t.nextKey owner) = none) :
    (t.nextLock owner).isStatic = true := by
  rw [nextLock_of_new new, LockNum.isStatic, decide_eq_true_eq]
  show -((t.slots.length + 1 : Nat) : Int) < 0
  omega

/-- The next lock of a table with free serial numbers gets the next slot. -/
lemma SerialsFree.nextLock_eq (h : t.SerialsFree) : t.nextLock owner = -(t.slotCount : Int) :=
  nextLock_of_new h.find?_nextKey

/-- The next lock of a table with free serial numbers takes a slot of its own. -/
lemma SerialsFree.slots_synthesize (h : t.SerialsFree) :
    (t.synthesize owner).1.slots = t.slots ++ [.empty] := by
  have new : find? { t with nextSerial := t.nextSerial + 1 } (t.nextKey owner) = none :=
    h.find?_nextKey
  rw [synthesize_eq, register, new]

/-- The next lock of a table with free serial numbers is static. -/
lemma SerialsFree.nextLock_isStatic (h : t.SerialsFree) : (t.nextLock owner).isStatic = true :=
  nextLock_isStatic_of_new h.find?_nextKey

/-- Free serial numbers stay free. -/
lemma SerialsFree.synthesize (h : t.SerialsFree) : (t.synthesize owner).1.SerialsFree := by
  intro serial cls hle
  rw [nextSerial_synthesize] at hle
  have hne : LockKey.avoidance serial cls ≠ t.nextKey owner := by
    intro e
    simp only [nextKey, LockKey.avoidance.injEq] at e
    omega
  rw [find?_synthesize, if_neg hne]
  exact h serial cls (by omega)

/-- The second table is the first with a key for a number that was given out. -/
structure Named (t u : LockTable) (key : LockKey) (n : LockNum) : Prop where
  given : t.isAllocated n = true
  slots : u.slots = t.slots
  nextSerial : u.nextSerial = t.nextSerial
  /-- The key had no number, or this one. -/
  keeps : ∀ ⦃k m⦄, t.find? k = some m → u.find? k = some m
  found : ∀ k, u.find? k = if k = key then some n else t.find? k

/-- A key is added only for a number that was given out, and then stands for it. -/
lemma addAlias_eq_ok (h : t.addAlias key n = .ok u) : t.Named u key n := by
  unfold addAlias at h
  split at h
  · cases h
  · rename_i given
    have given : t.isAllocated n = true := by simpa using given
    split at h
    · rename_i existing old
      split at h
      · rename_i same
        subst same
        cases h
        refine ⟨given, rfl, rfl, fun _ _ hm => hm, fun k => ?_⟩
        split
        · rename_i e
          rw [e, old]
        · rfl
      · cases h
    · rename_i new
      cases h
      have found : ∀ k, find? { t with numbers := (key, n) :: t.numbers } k =
          if k = key then some n else t.find? k := by
        intro k
        by_cases e : k = key
        · simp [e, find?]
        · simp [e, find?, List.lookup_cons, beq_eq_false_iff_ne.mpr e]
      refine ⟨given, rfl, rfl, ?_, found⟩
      intro k m hm
      rw [found, if_neg, hm]
      rintro rfl
      rw [new] at hm
      cases hm

/-- A key that stands for another lock is not added. -/
lemma addAlias_taken {m : LockNum} (given : t.isAllocated n = true) (hm : t.find? key = some m)
    (hne : m ≠ n) :
    t.addAlias key n = .error (.model (.aliasTaken key.text m n)) := by
  unfold addAlias
  rw [given, hm]
  exact if_neg hne

/-- A key that stands for no other lock is added. -/
lemma exists_addAlias (given : t.isAllocated n = true) (own : ∀ m, t.find? key = some m → m = n) :
    ∃ u, t.addAlias key n = .ok u := by
  unfold addAlias
  rw [given]
  cases hm : t.find? key with
  | none => exact ⟨_, rfl⟩
  | some m => exact ⟨t, if_pos (own m hm)⟩

/-- The table has been filled with expressions, names for their locks, and synthesized locks
only. -/
inductive Filled : LockTable → Prop
  | empty : Filled .empty
  | expression (t : LockTable) (name : String) (sign : Nat → LockNum) (sites : SortedSet String) :
    Filled t → Filled (t.register (.value name) sign sites).1
  | renamed (t u : LockTable) (name : String) (n : LockNum) :
    Filled t → t.addAlias (.value name) n = .ok u → Filled u
  | synthesized (t : LockTable) (owner : String) : Filled t → Filled (t.synthesize owner).1

/-- A table has free serial numbers if all its avoidance locks have been synthesized. -/
lemma Filled.serialsFree (h : t.Filled) : t.SerialsFree := by
  induction h with
  | empty =>
    intro serial owner _
    rfl
  | expression t name sign sites _ ih =>
    intro serial owner hle
    rw [nextSerial_register] at hle
    rw [find?_register, if_neg nofun]
    exact ih serial owner hle
  | renamed t u name n _ hu ih =>
    have named := addAlias_eq_ok hu
    intro serial owner hle
    rw [named.nextSerial] at hle
    rw [named.found, if_neg nofun]
    exact ih serial owner hle
  | synthesized t owner _ ih => exact ih.synthesize

/-- Every number in the table has been given out. -/
def Allocated (t : LockTable) : Prop :=
  ∀ ⦃key n⦄, t.find? key = some n → t.isAllocated n = true

lemma isAllocated_iff {n : LockNum} : t.isAllocated n = true ↔ n ≠ 0 ∧ n.natAbs < t.slotCount := by
  simp [isAllocated]

/-- What is given out depends on the count of slots alone. -/
lemma isAllocated_congr (slots : u.slots = t.slots) : u.isAllocated n = t.isAllocated n := by
  rw [isAllocated, isAllocated, slotCount, slotCount, slots]

/-- A key without a number takes a slot. -/
lemma slotCount_register (h : t.find? key = none) :
    (t.register key sign sites).1.slotCount = t.slotCount + 1 := by
  rw [LockTable.register, h]
  simp [slotCount]

/-- A table has given out its numbers if each entry's number has been. -/
lemma allocated_of_numbers (h : ∀ entry ∈ t.numbers, t.isAllocated entry.2 = true) :
    t.Allocated := by
  intro key n hn
  obtain ⟨before, after, hl, _⟩ := List.lookup_eq_some_iff.mp hn
  exact h (key, n) (by simp [hl])

/-- A number that was given out stays so. -/
lemma isAllocated_register {n : LockNum} (h : t.isAllocated n = true) :
    (t.register key sign sites).1.isAllocated n = true := by
  cases hf : t.find? key with
  | some m =>
    rw [register_old hf]
    exact h
  | none =>
    rw [isAllocated_iff] at h ⊢
    rw [slotCount_register hf]
    exact ⟨h.1, Nat.lt_succ_of_lt h.2⟩

/-- Registering gives out the number of a slot. -/
lemma Allocated.register (h : t.Allocated)
    (hs : ∀ slot, sign slot = (slot : Int) ∨ sign slot = -(slot : Int)) :
    (t.register key sign sites).1.Allocated := by
  intro k n hn
  rw [find?_register] at hn
  split at hn
  · cases hn
    cases hf : t.find? key with
    | some n =>
      rw [register_old hf]
      exact h hf
    | none =>
      have used : (t.slotCount : Int) ≠ 0 := Int.natCast_ne_zero.mpr (Nat.succ_ne_zero _)
      rw [register_new hf, isAllocated_iff, slotCount_register hf]
      rcases hs t.slotCount with e | e
      · rw [e, Int.natAbs_natCast]
        exact ⟨used, Nat.lt_succ_self _⟩
      · rw [e, Int.natAbs_neg, Int.natAbs_natCast]
        exact ⟨Int.neg_ne_zero.mpr used, Nat.lt_succ_self _⟩
  · exact isAllocated_register (h hn)

/-- A key that is added gives out no number. -/
lemma Allocated.addAlias (h : t.Allocated) (hu : t.addAlias key n = .ok u) : u.Allocated := by
  have named := addAlias_eq_ok hu
  intro k m hm
  rw [isAllocated_congr named.slots]
  rw [named.found] at hm
  split at hm
  · cases hm
    exact named.given
  · exact h hm

/-- A synthesized lock is registered for the next slot. -/
lemma Allocated.synthesize (h : t.Allocated) : (t.synthesize owner).1.Allocated := by
  rw [synthesize_eq]
  exact Allocated.register (t := { t with nextSerial := t.nextSerial + 1 }) h fun slot => .inr rfl

/-- No key of the table stands for a next lock whose key is new. -/
lemma Allocated.find?_ne_of_new (h : t.Allocated) (new : t.find? (t.nextKey owner) = none) :
    t.find? k ≠ some (t.nextLock owner) := by
  intro hk
  have less := (isAllocated_iff.mp (h hk)).2
  rw [nextLock_of_new new, Int.natAbs_neg, Int.natAbs_natCast] at less
  exact Nat.lt_irrefl _ less

/-- No key of the table stands for the next lock. -/
lemma Allocated.find?_ne_nextLock (h : t.Allocated) (free : t.SerialsFree) :
    t.find? k ≠ some (t.nextLock owner) :=
  h.find?_ne_of_new free.find?_nextKey

/-- The operations lead to the table from the empty one. -/
inductive Reached : LockTable → Prop
  | empty : Reached .empty
  | static (t : LockTable) (key : LockKey) : Reached t → Reached (t.registerStatic key).1
  | dynamic (t : LockTable) (key : LockKey) (sites : SortedSet String) :
    Reached t → Reached (t.registerDynamic key sites).1
  | named (t u : LockTable) (key : LockKey) (n : LockNum) :
    Reached t → t.addAlias key n = .ok u → Reached u
  | synthesized (t : LockTable) (owner : String) : Reached t → Reached (t.synthesize owner).1

/-- The numbers in a table that the operations lead to have been given out. -/
theorem Reached.allocated (h : t.Reached) : t.Allocated := by
  induction h with
  | empty =>
    intro key n hn
    cases hn
  | static t key _ ih => exact ih.register fun slot => .inr rfl
  | dynamic t key sites _ ih => exact ih.register fun slot => .inl rfl
  | named t u key n _ hu ih => exact ih.addAlias hu
  | synthesized t owner _ ih => exact ih.synthesize

end Interlock.LockTable
