import Interlock.LockOrder.Search
import Mathlib.Tactic.Common

/-!
# Look-ups in an arena

When the look-ups of an arena succeed, and with what. A chain of look-ups succeeds if every single
one does (`bind_eq_ok`); the numbers of a lockset are found if every key has one
(`numbersOf_eq_ok`), and then they are the locks that the section holds (`held_of_lockNums`).
-/

namespace Interlock

variable {α β ε : Type}

/-- A computation goes on only from a result. -/
lemma bind_eq_ok {x : Except ε α} {f : α → Except ε β} {b : β} :
    x >>= f = .ok b ↔ ∃ a, x = .ok a ∧ f a = .ok b := by
  constructor
  · intro h
    cases x with
    | error e => cases h
    | ok a => exact ⟨a, rfl, h⟩
  · rintro ⟨a, rfl, h⟩
    exact h

/-- A computation fails where it begins or where it goes on. -/
lemma bind_eq_error {x : Except ε α} {f : α → Except ε β} {e : ε} :
    x >>= f = .error e ↔ x = .error e ∨ ∃ a, x = .ok a ∧ f a = .error e := by
  cases x with
  | error e' =>
    constructor
    · intro h
      cases h
      exact .inl rfl
    · rintro (h | ⟨a, h, _⟩)
      · cases h
        rfl
      · cases h
  | ok a =>
    constructor
    · exact fun h => .inr ⟨a, rfl, h⟩
    · rintro (h | ⟨_, h, he⟩)
      · cases h
      · cases h
        exact he

/-- A computation that goes on from a result has one if what follows has. -/
lemma exists_bind_ok {x : Except ε α} {f : α → Except ε β} {a : α} (hx : x = .ok a)
    (hf : ∃ b, f a = .ok b) : ∃ b, x >>= f = .ok b := by
  subst hx
  exact hf

/-- A filter goes through if every test does, and then keeps what passes. -/
lemma filterM_eq_ok {f : α → Except ε Bool} {l out : List α} :
    l.filterM f = .ok out ↔ ∃ p : α → Bool, (∀ x ∈ l, f x = .ok (p x)) ∧ out = l.filter p := by
  constructor
  · intro h
    have aux : ∀ acc r, l.filterAuxM f acc = .ok r →
        (∀ x ∈ l, f x = .ok ((f x).toOption.getD false)) ∧
          r = (l.filter fun x => (f x).toOption.getD false).reverse ++ acc := by
      clear h
      induction l with
      | nil =>
        intro acc r h
        cases h
        exact ⟨nofun, rfl⟩
      | cons x rest ih =>
        intro acc r h
        obtain ⟨b, hb, h⟩ := bind_eq_ok.mp h
        obtain ⟨answers, rfl⟩ := ih _ r h
        have answer : (f x).toOption.getD false = b := by
          rw [hb]
          rfl
        refine ⟨List.forall_mem_cons.mpr ⟨by rw [answer, hb], answers⟩, ?_⟩
        rw [List.filter_cons, answer]
        cases b <;> simp
    obtain ⟨r, hr, h⟩ := bind_eq_ok.mp h
    cases h
    obtain ⟨answers, rfl⟩ := aux [] r hr
    exact ⟨_, answers, by rw [List.append_nil, List.reverse_reverse]⟩
  · rintro ⟨p, answers, rfl⟩
    have aux : ∀ acc, l.filterAuxM f acc = .ok ((l.filter p).reverse ++ acc) := by
      induction l with
      | nil => exact fun acc => rfl
      | cons x rest ih =>
        intro acc
        obtain ⟨hx, hrest⟩ := List.forall_mem_cons.mp answers
        refine bind_eq_ok.mpr ⟨p x, hx, (ih hrest _).trans ?_⟩
        cases hp : p x <;> simp [hp]
    refine bind_eq_ok.mpr ⟨_, aux [], ?_⟩
    rw [List.append_nil, List.reverse_reverse]
    rfl

/-- A fold that fails has gone through the members before the one where it fails. -/
lemma foldlM_eq_error {f : β → α → Except ε β} {l : List α} {b : β} {e : ε}
    (h : l.foldlM f b = .error e) :
    ∃ before a after b', l = before ++ a :: after ∧ before.foldlM f b = .ok b' ∧
      f b' a = .error e := by
  induction l generalizing b with
  | nil => cases h
  | cons a rest ih =>
    rw [List.foldlM_cons] at h
    cases ha : f b a with
    | error e' =>
      rw [ha] at h
      cases h
      exact ⟨[], a, rest, b, rfl, rfl, ha⟩
    | ok b1 =>
      rw [ha] at h
      obtain ⟨before, a', after, b', rfl, hb, he⟩ := ih h
      refine ⟨a :: before, a', after, b', rfl, ?_, he⟩
      rw [List.foldlM_cons, ha]
      exact hb

/-- A list with one more member has it in the place after the last. -/
lemma getElem?_concat_eq_some {l : List α} {a b : α} {i : Nat} :
    (l ++ [a])[i]? = some b ↔ l[i]? = some b ∨ (i = l.length ∧ a = b) := by
  rw [List.getElem?_append]
  split
  · rename_i less
    rw [or_iff_left]
    exact fun h => absurd h.1 (Nat.ne_of_lt less)
  · rename_i out
    obtain ⟨k, rfl⟩ := Nat.exists_eq_add_of_le (Nat.not_lt.mp out)
    rw [Nat.add_sub_cancel_left, List.getElem?_eq_none (Nat.le_add_right _ _)]
    cases k with
    | zero => simp
    | succ k => simp

/-- The last member of a list changes. -/
lemma modify_concat {f : α → α} {a : α} {l : List α} :
    (l ++ [a]).modify l.length f = l ++ [f a] := by
  induction l with
  | nil => rfl
  | cons b rest ih =>
    rw [List.cons_append, List.length_cons, List.modify_succ_cons, ih, List.cons_append]

namespace Arena

variable {a : Arena} {t : SectionId} {s : Section} {keys : List LockKey} {numbers : List LockNum}

lemma section?_eq_ok : a.section? t = .ok s ↔ a.sections[t]? = some s := by
  unfold section?
  cases a.sections[t]? with
  | none => simp
  | some u => simp

lemma group?_eq_ok {g : GroupId} {group : Group} :
    a.group? g = .ok group ↔ a.groups[g]? = some group := by
  unfold group?
  cases a.groups[g]? with
  | none => simp
  | some u => simp

lemma number_eq_ok {table : LockTable} {key : LockKey} {n : LockNum} :
    table.number key = .ok n ↔ table.find? key = some n := by
  unfold LockTable.number
  cases table.find? key with
  | none => simp
  | some m => simp

/-- The numbers of a lockset are found if every key has one. -/
lemma numbersOf_eq_ok :
    a.numbersOf keys = .ok numbers ↔ keys.map a.locks.find? = numbers.map some := by
  unfold numbersOf
  induction keys generalizing numbers with
  | nil =>
    cases numbers with
    | nil => exact ⟨fun _ => rfl, fun _ => rfl⟩
    | cons n rest => exact ⟨nofun, nofun⟩
  | cons key keys ih =>
    rw [List.mapM_cons, bind_eq_ok]
    constructor
    · rintro ⟨n, hn, h⟩
      obtain ⟨rest, hr, h⟩ := bind_eq_ok.mp h
      cases h
      rw [List.map_cons, List.map_cons, number_eq_ok.mp hn, ih.mp hr]
    · intro h
      cases numbers with
      | nil => cases h
      | cons n rest =>
        obtain ⟨hn, hr⟩ := List.cons.inj h
        exact ⟨n, number_eq_ok.mpr hn, bind_eq_ok.mpr ⟨rest, ih.mpr hr, rfl⟩⟩

/-- The numbers of a lockset are not found only for a key that has none. -/
lemma numbersOf_eq_error {f : Fault} (h : a.numbersOf keys = .error f) :
    ∃ key ∈ keys, a.locks.find? key = none ∧ f = .unknownLock key.text := by
  unfold numbersOf at h
  induction keys with
  | nil => cases h
  | cons key rest ih =>
    rw [List.mapM_cons] at h
    rcases bind_eq_error.mp h with h | ⟨n, _, h⟩
    · refine ⟨key, List.mem_cons_self, ?_⟩
      unfold LockTable.number at h
      split at h
      · cases h
      · rename_i unknown
        cases h
        exact ⟨unknown, rfl⟩
    · rcases bind_eq_error.mp h with h | ⟨_, _, h⟩
      · obtain ⟨k, hk, unknown⟩ := ih h
        exact ⟨k, List.mem_cons_of_mem key hk, unknown⟩
      · cases h

/-- The locks of a section are found if it is there and all its keys have numbers. -/
lemma lockNums_eq_ok :
    a.lockNums t = .ok numbers ↔
      ∃ s, a.sections[t]? = some s ∧ s.lockset.map a.locks.find? = numbers.map some := by
  rw [lockNums, bind_eq_ok]
  simp only [section?_eq_ok, numbersOf_eq_ok]

/-- The locks that are found are those that the section holds. -/
lemma held_of_lockNums (h : a.lockNums t = .ok numbers) : a.held t = numbers := by
  obtain ⟨s, hs, hn⟩ := lockNums_eq_ok.mp h
  have found : s.lockset.filterMap a.locks.find? = (s.lockset.map a.locks.find?).filterMap id := by
    rw [List.filterMap_map]
    rfl
  rw [held, hs]
  show s.lockset.filterMap a.locks.find? = numbers
  rw [found, hn, List.filterMap_map]
  exact List.filterMap_some

end Arena

end Interlock
