import Interlock.Proofs.Lock.History

/-!
# Lock tables that only grow

An operation appends to the slots of a table and never writes to them: a key that has no number
takes a slot when it is registered, and nothing else takes one (`slots_perform`). So a slot keeps
the points-to set that it was taken for, as a key keeps its number, whatever comes later
(`pointsTo?_of_prefix`, `find?_of_prefix`), and a number that is given out is larger in absolute
value than all numbers before it (`appends_only`).
-/

namespace Interlock.LockTable

variable {t : LockTable} {key : LockKey} {sign : Nat → LockNum}
  {sites : SortedSet String} {n : LockNum}
  {ops before : List Operation} {op : Operation}

/-! ## Slots -/

/-- The key that an operation registers. -/
def registered? (t : LockTable) : Operation → Option LockKey
  | .registerStatic key | .registerDynamic key _ => some key
  | .addAlias _ _ => none
  | .synthesize owner => some (t.nextKey owner)

/-- The points-to set that an operation records for the lock that it registers. -/
def Operation.recorded : Operation → SortedSet String
  | .registerDynamic _ sites => sites
  | .registerStatic _ | .addAlias _ _ | .synthesize _ => .empty

/-- The points-to sets that an operation adds: one if it registers a key that has no number. -/
def added (t : LockTable) (op : Operation) : List (SortedSet String) :=
  match t.registered? op with
  | none => []
  | some key => if t.contains key then [] else [op.recorded]

lemma slots_register :
    (t.register key sign sites).1.slots = t.slots ++ if t.contains key then [] else [sites] := by
  unfold register contains
  cases t.find? key with
  | none => rfl
  | some n => exact (List.append_nil _).symm

/-- An operation appends to the slots and leaves those that are there. -/
lemma slots_perform : (t.perform op).slots = t.slots ++ t.added op := by
  cases op with
  | registerStatic key => exact slots_register
  | registerDynamic key sites => exact slots_register
  | addAlias key n =>
    rw [perform, added, registered?, List.append_nil]
    cases hu : t.addAlias key n with
    | error f => rfl
    | ok u => exact (addAlias_eq_ok hu).slots
  | synthesize owner =>
    rw [perform, synthesize_eq]
    exact slots_register (t := { t with nextSerial := t.nextSerial + 1 })

lemma slotCount_perform : (t.perform op).slotCount = t.slotCount + (t.added op).length := by
  rw [slotCount, slots_perform, List.length_append, slotCount, Nat.add_right_comm]

/-- The slots stay in front of those that come later. -/
lemma slots_of_prefix (later : before <+: ops) :
    (history before).table.slots <+: (history ops).table.slots := by
  induction ops using List.reverseRecOn with
  | nil =>
    obtain rfl := List.prefix_nil.mp later
    exact List.prefix_rfl
  | append_singleton ops op ih =>
    rcases List.prefix_concat_iff.mp later with rfl | later
    · exact List.prefix_rfl
    · rw [history_concat, History.next, slots_perform]
      exact (ih later).trans (List.prefix_append _ _)

/-- A slot keeps its points-to set through whatever comes later. -/
lemma pointsTo?_of_prefix (later : before <+: ops)
    (hn : (history before).table.pointsTo? n = some sites) :
    (history ops).table.pointsTo? n = some sites := by
  unfold pointsTo? at hn ⊢
  split at hn
  · cases hn
  · rename_i used
    rw [if_neg used]
    obtain ⟨more, hmore⟩ := slots_of_prefix later
    rw [← hmore]
    exact (List.getElem?_append_left (List.getElem?_eq_some_iff.mp hn).1).trans hn

/-! ## Registered locks -/

/-- An operation that registers a key without a number returns that of the next slot, and fills
it. -/
structure Appends (t : LockTable) (key : LockKey) (op : Operation) (n : LockNum) : Prop where
  returned : t.returned? op = some n
  found : (t.perform op).find? key = some n
  slot : n.natAbs = t.slotCount
  slotCount : (t.perform op).slotCount = t.slotCount + 1
  sites : (t.perform op).pointsTo? n = some op.recorded

/-- The set in the last slot is the one that was added. -/
lemma pointsTo?_last (slot : n.natAbs = t.slotCount) (new : t.added op = [sites]) :
    (t.perform op).pointsTo? n = some sites := by
  have used : n ≠ 0 := by
    rintro rfl
    exact absurd slot (Nat.succ_ne_zero _).symm
  have last : n.natAbs - 1 = t.slots.length := by
    rw [slot]
    exact Nat.add_sub_cancel _ _
  rw [pointsTo?, if_neg used, slots_perform, new, last]
  exact List.getElem?_concat_length

/-- What all registrations have in common: the key has the number that is returned, and it is the
slot's. -/
lemma appends_of_new (registers : t.registered? op = some key) (new : t.find? key = none) :
    ∃ n, t.Appends key op n := by
  have returned : ∃ n, t.returned? op = some n ∧ (t.perform op).find? key = some n ∧
      n.natAbs = t.slotCount := by
    cases op with
    | registerStatic k =>
      cases registers
      exact ⟨_, rfl, find?_register.trans (if_pos rfl), by
        rw [registerStatic, register_new new]; simp⟩
    | registerDynamic k sites =>
      cases registers
      exact ⟨_, rfl, find?_register.trans (if_pos rfl), by
        rw [registerDynamic, register_new new]; simp⟩
    | addAlias k n => cases registers
    | synthesize owner =>
      cases registers
      refine ⟨_, rfl, find?_synthesize.trans (if_pos rfl), ?_⟩
      show (t.nextLock owner).natAbs = _
      rw [nextLock_of_new new, Int.natAbs_neg, Int.natAbs_natCast]
  have lacks : t.contains key = false := by
    rw [contains, new]
    rfl
  have added : t.added op = [op.recorded] := by
    unfold LockTable.added
    rw [registers]
    simp only [lacks, Bool.false_eq_true, if_false]
  obtain ⟨n, hn, found, slot⟩ := returned
  refine ⟨n, hn, found, slot, ?_, pointsTo?_last slot added⟩
  rw [slotCount_perform, added]
  rfl

/-- Registering a key that has a number returns it. -/
lemma returned?_of_some (registers : t.registered? op = some key) (old : t.find? key = some n) :
    t.returned? op = some n := by
  cases op with
  | registerStatic k =>
    cases registers
    rw [returned?, registerStatic, register_old old]
  | registerDynamic k sites =>
    cases registers
    rw [returned?, registerDynamic, register_old old]
  | addAlias k n => cases registers
  | synthesize owner =>
    cases registers
    rw [returned?, synthesize_of_some old]

/-- What the table that operations lead to keeps, and what the next operation may add to it. -/
structure AppendOnly (ops : List Operation) : Prop where
  /-- Every number is that of a slot, and zero is none. -/
  numbered : ∀ ⦃key n⦄, (history ops).table.find? key = some n →
    n ≠ 0 ∧ n.natAbs < (history ops).table.slotCount
  /-- A key keeps its number through whatever comes later. -/
  keys : ∀ ⦃later key n⦄, ops <+: later → (history ops).table.find? key = some n →
    (history later).table.find? key = some n
  /-- A slot keeps its points-to set. -/
  sets : ∀ ⦃later n sites⦄, ops <+: later → (history ops).table.pointsTo? n = some sites →
    (history later).table.pointsTo? n = some sites
  /-- A key without a number gets that of the next slot, which is larger than all before. -/
  fresh : ∀ ⦃op key⦄, (history ops).table.registered? op = some key →
    (history ops).table.find? key = none → ∃ n, (history ops).table.Appends key op n ∧
      ∀ m ∈ (history ops).returned, m.natAbs < n.natAbs
  /-- Registering a key that has a number returns it, and takes no slot. -/
  known : ∀ ⦃op key n⦄, (history ops).table.registered? op = some key →
    (history ops).table.find? key = some n → (history ops).table.returned? op = some n ∧
      ((history ops).table.perform op).slotCount = (history ops).table.slotCount
  /-- Adding a key for a lock takes no slot. -/
  named : ∀ key n, ((history ops).table.perform (.addAlias key n)).slotCount =
    (history ops).table.slotCount

/-- A lock table is append-only: it keeps what it holds, and takes slots for new keys only. -/
theorem appends_only (ops : List Operation) : AppendOnly ops := by
  have b : (history ops).Booked := booked_history
  constructor
  case numbered => exact fun key n hn => isAllocated_iff.mp (b.allocated hn)
  case keys => exact fun later key n => find?_of_prefix
  case sets => exact fun later n sites => pointsTo?_of_prefix
  case fresh =>
    intro op key registers new
    obtain ⟨n, appended⟩ := appends_of_new registers new
    refine ⟨n, appended, fun m hm => ?_⟩
    rw [appended.slot]
    exact (isAllocated_iff.mp (b.isAllocated hm)).2
  case known =>
    intro op key n registers old
    refine ⟨returned?_of_some registers old, ?_⟩
    have held : (history ops).table.contains key = true := by
      rw [contains, old]
      rfl
    have unadded : (history ops).table.added op = [] := by
      unfold added
      rw [registers]
      exact if_pos held
    rw [slotCount_perform, unadded]
    rfl
  case named => exact fun key n => slotCount_perform

end Interlock.LockTable
