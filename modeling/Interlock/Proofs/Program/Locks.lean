import Interlock.Program.Model
import Interlock.Proofs.Lock.History
import Interlock.Proofs.Program.Settles

/-!
# Locks of a model

`Model.addLock` goes through for all locks of a model if no two of them have a name in common and
static locks have no allocation sites (`Model.LocksResolve`, `settles_locks`). A lock may have one
of its own names twice. The keys of the table are then the names of the locks, and all names of a
lock stand for the number that its place and its kind give it (`LockTable.Registers`).
-/

namespace Interlock

variable {t u : LockTable} {ls : List LockSpec} {l : LockSpec} {key : LockKey}
  {name : String} {n : LockNum}

namespace LockSpec

/-- The names by which a lock is known. -/
def names (l : LockSpec) : List String := l.name :: l.aliases

/-- The number of a lock in a place of the list of locks, counted from zero. -/
def number (l : LockSpec) (place : Nat) : LockNum :=
  match l.kind with
  | .static => -(place + 1)
  | .dynamic => place + 1

/-- Locks in different places have different numbers. -/
lemma natAbs_number (l : LockSpec) (place : Nat) : (l.number place).natAbs = place + 1 := by
  unfold number
  cases l.kind with
  | static => rw [Int.natAbs_neg]; rfl
  | dynamic => rfl

end LockSpec

/-- Some lock has the name. -/
def NamesLock (ls : List LockSpec) (name : String) : Prop := ∃ l ∈ ls, name ∈ l.names

/-- The table has the names of the locks as keys, with their numbers, and the allocation sites by
slot. -/
structure LockTable.Registers (t : LockTable) (ls : List LockSpec) : Prop where
  slots : t.slots = ls.map fun l => .ofList l.pointsTo
  numbers : ∀ key n, t.find? key = some n ↔
    ∃ (name : String) (place : Nat) (l : LockSpec), key = .value name ∧ ls[place]? = some l ∧
      name ∈ l.names ∧ n = l.number place

lemma LockTable.Registers.exists_find? (h : t.Registers ls) :
    (∃ n, t.find? (.value name) = some n) ↔ NamesLock ls name := by
  constructor
  · rintro ⟨n, hn⟩
    obtain ⟨_, place, l, e, there, mem, _⟩ := (h.numbers _ n).mp hn
    cases e
    exact ⟨l, List.mem_of_getElem? there, mem⟩
  · rintro ⟨l, there, mem⟩
    obtain ⟨place, hp⟩ := List.mem_iff_getElem?.mp there
    exact ⟨_, (h.numbers _ _).mpr ⟨name, place, l, rfl, hp, mem, rfl⟩⟩

lemma LockTable.Registers.contains (h : t.Registers ls) :
    t.contains (.value name) = true ↔ NamesLock ls name := by
  rw [LockTable.contains, Option.isSome_iff_exists, h.exists_find?]

/-- The number of the next lock is none that a key stands for. -/
lemma LockTable.Registers.ne_number (h : t.Registers ls) (hn : t.find? key = some n) :
    n ≠ l.number ls.length := by
  rintro rfl
  obtain ⟨_, place, k, _, there, _, same⟩ := (h.numbers _ _).mp hn
  have places : ls.length + 1 = place + 1 := by
    rw [← l.natAbs_number, same, k.natAbs_number]
  exact Nat.ne_of_gt (List.getElem?_eq_some_iff.mp there).1 (Nat.succ.inj places)

namespace Model

/-- Locks have no names in common, and static ones no allocation sites. -/
structure LocksResolve (ls : List LockSpec) : Prop where
  apart : ls.Pairwise fun l k => l.names.Disjoint k.names
  sites : ∀ l ∈ ls, l.kind = .static → l.pointsTo = []

lemma locksResolve_concat :
    LocksResolve (ls ++ [l]) ↔ LocksResolve ls ∧ (l.kind = .static → l.pointsTo = []) ∧
      ∀ name ∈ l.names, ¬ NamesLock ls name := by
  constructor
  · intro h
    obtain ⟨apart, _, last⟩ := List.pairwise_append.mp h.apart
    refine ⟨⟨apart, fun k hk => h.sites k (List.mem_append_left _ hk)⟩, ?_, ?_⟩
    · exact h.sites l (List.mem_append_right _ (List.mem_singleton_self l))
    · rintro name mem ⟨k, hk, old⟩
      exact last k hk l (List.mem_singleton_self l) old mem
  · rintro ⟨h, sites, new⟩
    constructor
    · refine List.pairwise_append.mpr ⟨h.apart, List.pairwise_singleton _ _, ?_⟩
      intro k hk l' hl name old mem
      cases List.mem_singleton.mp hl
      exact new name mem ⟨k, hk, old⟩
    · intro k hk
      rcases List.mem_append.mp hk with hk | hk
      · exact h.sites k hk
      · cases List.mem_singleton.mp hk
        exact sites

/-- One table is another with a lock more, which has the names that were added so far. -/
structure Extends (t : LockTable) (l : LockSpec) (n : LockNum) (names : List String)
    (u : LockTable) : Prop where
  slots : u.slots = t.slots ++ [.ofList l.pointsTo]
  numbers : ∀ key m, u.find? key = some m ↔
    t.find? key = some m ∨ (m = n ∧ ∃ name ∈ names, key = .value name)

/-- A lock is registered under its name, if no lock has that. -/
lemma extends_register (sign : Nat → LockNum) (h : t.Registers ls) (new : ¬ NamesLock ls l.name)
    (signed : sign t.slotCount = l.number ls.length) :
    (t.register (.value l.name) sign (.ofList l.pointsTo)).2 = l.number ls.length ∧
      Extends t l (l.number ls.length) [l.name]
        (t.register (.value l.name) sign (.ofList l.pointsTo)).1 := by
  have free : t.find? (.value l.name) = none :=
    Option.eq_none_iff_forall_ne_some.mpr fun n hn => new (h.exists_find?.mp ⟨n, hn⟩)
  have number : (t.register (.value l.name) sign (.ofList l.pointsTo)).2 = l.number ls.length :=
    (LockTable.register_new free).trans signed
  refine ⟨number, ?_, ?_⟩
  · unfold LockTable.register
    rw [free]
  · intro key m
    rw [LockTable.find?_register, number]
    split
    · rename_i e
      subst e
      simp [free, eq_comm]
    · rename_i e
      simp [e]

/-- A lock gets another name if no other lock has it. -/
lemma settles_addAlias {names : List String} (h : t.Registers ls)
    (e : Extends t l (l.number ls.length) names u) :
    Settles (u.addAlias (.value name) (l.number ls.length)) (¬ NamesLock ls name)
      (Extends t l (l.number ls.length) (names ++ [name])) := by
  have given : u.isAllocated (l.number ls.length) = true := by
    rw [LockTable.isAllocated_iff, ← Int.natAbs_ne_zero, l.natAbs_number, LockTable.slotCount,
      e.slots, h.slots, List.length_append, List.length_map]
    exact ⟨Nat.succ_ne_zero _, Nat.lt_succ_self _⟩
  by_cases old : NamesLock ls name
  · obtain ⟨m, hm⟩ := h.exists_find?.mpr old
    have taken : u.find? (.value name) = some m := (e.numbers _ m).mpr (.inl hm)
    exact .error _ (fun new => new old) (LockTable.addAlias_taken given taken (h.ne_number hm))
  · have free : ∀ m, t.find? (.value name) ≠ some m := fun m hm => old (h.exists_find?.mp ⟨m, hm⟩)
    have own : ∀ m, u.find? (.value name) = some m → m = l.number ls.length := by
      intro m hm
      rcases (e.numbers _ m).mp hm with hm | ⟨rfl, _⟩
      · exact absurd hm (free m)
      · rfl
    obtain ⟨v, hv⟩ := LockTable.exists_addAlias given own
    have named := LockTable.addAlias_eq_ok hv
    refine .ok v old hv ⟨named.slots.trans e.slots, fun key m => ?_⟩
    rw [named.found]
    split
    · rename_i same
      subst same
      simp [free, eq_comm]
    · rename_i differs
      rw [e.numbers]
      simp [or_and_right, exists_or, differs]

/-- A lock that has all its names is one of those that the table has. -/
lemma Extends.registers (h : t.Registers ls) (e : Extends t l (l.number ls.length) l.names u) :
    u.Registers (ls ++ [l]) := by
  constructor
  · rw [e.slots, h.slots, List.map_append, List.map_singleton]
  · intro key n
    rw [e.numbers, h.numbers]
    simp only [getElem?_concat_eq_some]
    constructor
    · rintro (⟨name, place, k, hk, there, mem, hn⟩ | ⟨hn, name, mem, hk⟩)
      · exact ⟨name, place, k, hk, .inl there, mem, hn⟩
      · exact ⟨name, ls.length, l, hk, .inr ⟨rfl, rfl⟩, mem, hn⟩
    · rintro ⟨name, place, k, hk, there | ⟨rfl, rfl⟩, mem, hn⟩
      · exact .inl ⟨name, place, k, hk, there, mem, hn⟩
      · exact .inr ⟨hn, name, mem, hk⟩

/-- The further names of a lock are added if no other lock has one of them. -/
lemma settles_aliases (h : t.Registers ls) (e : Extends t l (l.number ls.length) [l.name] u) :
    Settles (l.aliases.foldlM (fun t name => t.addAlias (.value name) (l.number ls.length)) u)
      (∀ name ∈ l.aliases, ¬ NamesLock ls name) (fun u => u.Registers (ls ++ [l])) := by
  have all :
      Settles (l.aliases.foldlM (fun t name => t.addAlias (.value name) (l.number ls.length)) u)
        (∀ name ∈ l.aliases, ¬ NamesLock ls name)
        (Extends t l (l.number ls.length) (l.name :: l.aliases)) := by
    apply Settles.foldlM (C := fun before => ∀ name ∈ before, ¬ NamesLock ls name)
      (I := fun before => Extends t l (l.number ls.length) (l.name :: before))
    · exact nofun
    · exact e
    · intro before name u _ new e
      refine (settles_addAlias h e).imp ?_ fun _ _ e => e
      simp only [List.forall_mem_append, List.forall_mem_singleton]
      exact ⟨fun last => ⟨new, last⟩, And.right⟩
    · exact fun before name new => fun k hk => new k (List.mem_append_left _ hk)
  exact all.imp Iff.rfl fun u _ e => e.registers h

/-- A lock is added if no lock before it has one of its names, and a static one if it has no
allocation sites. -/
lemma settles_addLock (resolve : LocksResolve ls) (h : t.Registers ls) :
    Settles (addLock t l) (LocksResolve (ls ++ [l])) (fun u => u.Registers (ls ++ [l])) := by
  have slot : t.slotCount = ls.length + 1 := by
    rw [LockTable.slotCount, h.slots, List.length_map]
  -- what is left to do once the lock has its first name
  have aliases : ∀ {u}, ¬ NamesLock ls l.name → (l.kind = .static → l.pointsTo = []) →
      Extends t l (l.number ls.length) [l.name] u →
      Settles (l.aliases.foldlM (fun t name => t.addAlias (.value name) (l.number ls.length)) u)
        (LocksResolve (ls ++ [l])) (fun u => u.Registers (ls ++ [l])) := by
    intro u new sites e
    refine (settles_aliases h e).imp ?_ fun _ _ r => r
    rw [locksResolve_concat, LockSpec.names, List.forall_mem_cons]
    exact ⟨fun others => ⟨resolve, sites, new, others⟩, fun all => all.2.2.2⟩
  unfold addLock
  dsimp only
  split
  · rename_i old
    have old := h.contains.mp old
    exact .error _ (fun all => (locksResolve_concat.mp all).2.2 _ List.mem_cons_self old) rfl
  · rename_i new
    have new : ¬ NamesLock ls l.name := fun old => new (h.contains.mpr old)
    cases kind : l.kind with
    | static =>
      dsimp only
      split
      · rename_i unbound
        have unbound : l.pointsTo = [] := List.isEmpty_iff.mp unbound
        have signed : -(t.slotCount : Int) = l.number ls.length := by
          rw [slot, LockSpec.number, kind]
          rfl
        obtain ⟨number, e⟩ := extends_register (fun slot => -(slot : Int)) h new signed
        have sites : SortedSet.ofList l.pointsTo = .empty := by
          rw [unbound]
          rfl
        rw [sites] at number e
        dsimp only [pure, Except.pure, bind, Except.bind, LockTable.registerStatic]
        rw [number]
        exact aliases new (fun _ => unbound) e
      · rename_i bound
        refine .error _ (fun all => bound ?_) rfl
        rw [(locksResolve_concat.mp all).2.1 kind]
        rfl
    | dynamic =>
      have signed : (t.slotCount : Int) = l.number ls.length := by
        rw [slot, LockSpec.number, kind]
        rfl
      obtain ⟨number, e⟩ := extends_register (fun slot => (slot : Int)) h new signed
      dsimp only [pure, Except.pure, bind, Except.bind, LockTable.registerDynamic]
      rw [number]
      refine aliases new (fun static => ?_) e
      rw [kind] at static
      cases static

/-- All locks are added if no two of them have a name in common and the static ones have no
allocation sites. -/
lemma settles_locks :
    Settles (ls.foldlM addLock .empty) (LocksResolve ls) (fun u => u.Registers ls) := by
  apply Settles.foldlM
  · exact ⟨.nil, nofun⟩
  · refine ⟨rfl, fun key n => ⟨nofun, ?_⟩⟩
    rintro ⟨_, _, _, _, there, _⟩
    cases there
  · exact fun before l u _ resolve h => settles_addLock resolve h
  · exact fun before l all => (locksResolve_concat.mp all).1

end Model

end Interlock
