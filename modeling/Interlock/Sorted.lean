/-!
# Sorted finite sets

Members, edges and reachable methods are reported in ascending order, and two runs are compared
by the sets they leave. So a finite set is kept as the strictly ascending list of its elements:
the list that is printed is the set itself, and sets with the same elements are equal
(`SortedSet.eq_of_mem_iff`).
-/

namespace Interlock

/-- A strict linear order given by a test, by which the elements of a finite set are listed. -/
class Ranked (α : Type) where
  /-- The first element is listed before the second. -/
  before : α → α → Bool
  irrefl : ∀ a, before a a = false
  trans : ∀ {a b c}, before a b = true → before b c = true → before a c = true
  total : ∀ {a b}, before a b = false → before b a = false → a = b

namespace Ranked

instance : Ranked Nat where
  before a b := decide (a < b)
  irrefl a := by simp
  trans h k := by simp only [decide_eq_true_eq] at *; omega
  total h k := by simp only [decide_eq_false_iff_not] at *; omega

instance : Ranked Int where
  before a b := decide (a < b)
  irrefl a := by simp
  trans h k := by simp only [decide_eq_true_eq] at *; omega
  total h k := by simp only [decide_eq_false_iff_not] at *; omega

/-- Strings are listed by code points, which is also the order of their UTF-8 bytes. -/
instance : Ranked String where
  before a b := decide (a < b)
  irrefl a := by simp
  trans h k := by simp only [decide_eq_true_eq] at *; exact String.lt_trans h k
  total h k := by
    simp only [decide_eq_false_iff_not] at *
    exact String.le_antisymm (String.not_lt.mp k) (String.not_lt.mp h)

/-- The order of pairs looks at the first components, and at the second where the first agree. -/
def beforePair {α β : Type} [Ranked α] [Ranked β] (p q : α × β) : Bool :=
  before p.1 q.1 || (!before q.1 p.1 && before p.2 q.2)

instance {α β : Type} [Ranked α] [Ranked β] : Ranked (α × β) where
  before := beforePair
  irrefl p := by simp [beforePair, irrefl]
  trans {p q r} h k := by
    simp only [beforePair, Bool.or_eq_true, Bool.and_eq_true, Bool.not_eq_true'] at *
    rcases h with h | ⟨hn, h⟩ <;> rcases k with k | ⟨kn, k⟩
    · exact .inl (trans h k)
    · by_cases e : before q.1 r.1 = true
      · exact .inl (trans h e)
      · exact .inl (total (by simpa using e) kn ▸ h)
    · by_cases e : before p.1 q.1 = true
      · exact .inl (trans e k)
      · exact .inl (total (by simpa using e) hn ▸ k)
    · by_cases e : before p.1 q.1 = true
      · by_cases f : before q.1 r.1 = true
        · exact .inl (trans e f)
        · exact .inl (total (by simpa using f) kn ▸ e)
      · have pq := total (by simpa using e) hn
        exact .inr ⟨pq ▸ kn, trans h k⟩
  total {p q} h k := by
    simp only [beforePair, Bool.or_eq_false_iff, Bool.and_eq_false_iff,
      Bool.not_eq_eq_eq_not, Bool.not_false] at *
    have e : p.1 = q.1 := total h.1 k.1
    have h2 := h.2.resolve_left (by simp [k.1])
    have k2 := k.2.resolve_left (by simp [h.1])
    exact Prod.ext e (total h2 k2)

theorem asymm {α : Type} [Ranked α] {a b : α} (h : before a b = true) : before b a = false := by
  cases k : before b a with
  | false => rfl
  | true => exact absurd (trans h k) (by simp [irrefl])

end Ranked

/-- A finite set, kept as the strictly ascending list of its elements. -/
structure SortedSet (α : Type) [Ranked α] where
  toList : List α
  sorted : toList.Pairwise (Ranked.before · · = true)
deriving DecidableEq

namespace SortedSet

variable {α : Type} [Ranked α]

instance : Membership α (SortedSet α) where
  mem s a := a ∈ s.toList

theorem mem_toList {a : α} {s : SortedSet α} : a ∈ s.toList ↔ a ∈ s := Iff.rfl

/-- The set without elements. -/
def empty : SortedSet α := ⟨[], .nil⟩

instance : Inhabited (SortedSet α) := ⟨empty⟩

/-- Puts an element at its place in an ascending list, unless it stands there already. -/
def place (a : α) : List α → List α
  | [] => [a]
  | b :: rest =>
    if Ranked.before a b then a :: b :: rest
    else if Ranked.before b a then b :: place a rest
    else b :: rest

theorem mem_place {a b : α} {l : List α} : b ∈ place a l ↔ b = a ∨ b ∈ l := by
  induction l with
  | nil => simp [place]
  | cons c rest ih =>
    unfold place
    split
    · simp
    · split
      · simp only [List.mem_cons, ih]
        grind
      · have : a = c := Ranked.total (by simp_all) (by simp_all)
        grind

theorem sorted_place {a : α} {l : List α} (h : l.Pairwise (Ranked.before · · = true)) :
    (place a l).Pairwise (Ranked.before · · = true) := by
  induction l with
  | nil => simp [place]
  | cons c rest ih =>
    rw [List.pairwise_cons] at h
    unfold place
    split
    next hac =>
      refine List.pairwise_cons.mpr ⟨fun b hb => ?_, List.pairwise_cons.mpr h⟩
      rcases List.mem_cons.mp hb with rfl | hb
      · exact hac
      · exact Ranked.trans hac (h.1 b hb)
    next =>
      split
      next hca =>
        refine List.pairwise_cons.mpr ⟨fun b hb => ?_, ih h.2⟩
        rcases mem_place.mp hb with rfl | hb
        · exact hca
        · exact h.1 b hb
      next => exact List.pairwise_cons.mpr h

/-- Adds an element. -/
def insert (s : SortedSet α) (a : α) : SortedSet α :=
  ⟨place a s.toList, sorted_place s.sorted⟩

/-- Keeps the elements that pass a test. -/
def filter (s : SortedSet α) (keep : α → Bool) : SortedSet α :=
  ⟨s.toList.filter keep, s.sorted.filter _⟩

/-- Adds every element of a list. -/
def insertAll (s : SortedSet α) (l : List α) : SortedSet α :=
  l.foldl insert s

/-- The set of a list's elements. -/
def ofList (l : List α) : SortedSet α := empty.insertAll l

/-- The union of two sets. -/
def union (s t : SortedSet α) : SortedSet α := s.insertAll t.toList

/-- The number of elements. -/
def size (s : SortedSet α) : Nat := s.toList.length

/-- The set has no element. -/
def isEmpty (s : SortedSet α) : Bool := s.toList.isEmpty

variable [DecidableEq α]

/-- The set has the element. -/
def contains (s : SortedSet α) (a : α) : Bool := s.toList.contains a

instance (a : α) (s : SortedSet α) : Decidable (a ∈ s) :=
  inferInstanceAs (Decidable (a ∈ s.toList))

/-- Takes an element out. -/
def erase (s : SortedSet α) (a : α) : SortedSet α := s.filter (· != a)

omit [DecidableEq α] in
@[simp] theorem not_mem_empty {a : α} : ¬ a ∈ (empty : SortedSet α) := List.not_mem_nil

omit [DecidableEq α] in
@[simp] theorem mem_insert {a b : α} {s : SortedSet α} : b ∈ s.insert a ↔ b = a ∨ b ∈ s :=
  mem_place

omit [DecidableEq α] in
@[simp] theorem mem_filter {a : α} {s : SortedSet α} {keep : α → Bool} :
    a ∈ s.filter keep ↔ a ∈ s ∧ keep a = true :=
  List.mem_filter

omit [DecidableEq α] in
@[simp] theorem mem_insertAll {a : α} {s : SortedSet α} {l : List α} :
    a ∈ s.insertAll l ↔ a ∈ s ∨ a ∈ l := by
  induction l generalizing s with
  | nil => simp [insertAll]
  | cons b rest ih =>
    have := @ih (s.insert b)
    simp only [insertAll, List.foldl_cons] at *
    simp only [this, mem_insert, List.mem_cons]
    grind

omit [DecidableEq α] in
@[simp] theorem mem_ofList {a : α} {l : List α} : a ∈ ofList l ↔ a ∈ l := by simp [ofList]

omit [DecidableEq α] in
@[simp] theorem mem_union {a : α} {s t : SortedSet α} : a ∈ s.union t ↔ a ∈ s ∨ a ∈ t := by
  simp [union, mem_toList]

@[simp] theorem contains_eq_true {a : α} {s : SortedSet α} : s.contains a = true ↔ a ∈ s := by
  simp [contains, mem_toList]

@[simp] theorem mem_erase {a b : α} {s : SortedSet α} : b ∈ s.erase a ↔ b ∈ s ∧ b ≠ a := by
  simp [erase]

omit [DecidableEq α] in
/-- Two ascending lists with the same members are the same list. -/
theorem eq_of_mem_iff {l m : List α} (hl : l.Pairwise (Ranked.before · · = true))
    (hm : m.Pairwise (Ranked.before · · = true)) (h : ∀ a, a ∈ l ↔ a ∈ m) : l = m := by
  induction l generalizing m with
  | nil =>
    cases m with
    | nil => rfl
    | cons b _ => exact absurd ((h b).mpr (by simp)) (by simp)
  | cons a rest ih =>
    cases m with
    | nil => exact absurd ((h a).mp (by simp)) (by simp)
    | cons b tail =>
      rw [List.pairwise_cons] at hl hm
      have ab : a = b := by
        rcases List.mem_cons.mp ((h a).mp (by simp)) with e | e
        · exact e
        rcases List.mem_cons.mp ((h b).mpr (by simp)) with f | f
        · exact f.symm
        exact absurd (hm.1 a e) (by simp [Ranked.asymm (hl.1 b f)])
      subst ab
      refine congrArg _ (ih hl.2 hm.2 fun c => ⟨fun hc => ?_, fun hc => ?_⟩)
      · rcases List.mem_cons.mp ((h c).mp (by simp [hc])) with rfl | e
        · exact absurd (hl.1 _ hc) (by simp [Ranked.irrefl])
        · exact e
      · rcases List.mem_cons.mp ((h c).mpr (by simp [hc])) with rfl | e
        · exact absurd (hm.1 _ hc) (by simp [Ranked.irrefl])
        · exact e

end SortedSet

end Interlock
