import Interlock.Proofs.LockOrder.Run
import Mathlib.Algebra.Group.Fin.Basic
import Mathlib.Data.Fin.VecNotation

/-!
# Rings of locks that a search leaves

A `Ring` is a deadlock that an order still shows: a cycle of locks, of any length, whose arcs are
justified by sections of which no two hold a common static lock. A search looks one arc back only.
That is enough for the rings of one or two sections: every such ring has opposed arcs
(`Ring.two_sections_absurd`). It is not enough for three sections (`ringOfThree`), and not for two
where a forged key makes an avoidance lock a lock in the heap (`ringOfForged`).

The proof closes arcs of a ring by arcs that the search must have added: a section that labels an
arc from one lock and an arc to another takes the first before the second (`Ring.shortcut`).
-/

namespace Interlock

/-- A cycle of `n + 2` locks in the order of a search whose labels do not exclude each other. -/
structure Ring (s : LockSearch) (n : Nat) where
  locks : Fin (n + 2) → LockNum
  labels : Fin (n + 2) → SectionId
  distinct : ∀ i j, locks i = locks j → i = j
  arcs : ∀ i, s.order.Labelled (locks i) (locks (i + 1)) (labels i)
  exposed : ∀ i j, i ≠ j → ¬ s.arena.Excludes (labels i) (labels j)

namespace Ring

variable {s : LockSearch} {n : Nat} (r : Ring s n)

include r

/-- A section that labels two arcs of a ring holds no static lock. -/
lemma not_static {i j : Fin (n + 2)} (hne : i ≠ j) (same : r.labels i = r.labels j) {x : LockNum}
    (hx : x ∈ s.arena.held (r.labels j)) : x.isStatic = false := by
  by_contra hs
  have hs : x.isStatic = true := by simpa using hs
  apply r.exposed i j hne
  rw [same]
  exact Arena.excludes_iff.mpr ⟨x, hs, hx, hx⟩

/-- The label of an arc holds the lock that it leads from. -/
lemma mem_held (hs : s.Clean) (i : Fin (n + 2)) : r.locks i ∈ s.arena.held (r.labels i) := by
  rcases hs.sound (r.arcs i) with ⟨_, hord⟩ | ⟨_, hx, _⟩
  · exact hord.2.1
  · exact hx

/-- A section that labels two arcs takes the first lock of the one before the second lock of the
other. -/
lemma shortcut (hs : s.Clean) (static : ∀ n ∈ s.avoidanceLocks, n.isStatic = true)
    {i j : Fin (n + 2)} (same : r.labels i = r.labels j) (hne : i ≠ j + 1) :
    s.order.Labelled (r.locks i) (r.locks (j + 1)) (r.labels i) := by
  by_cases hij : i = j
  · subst hij
    exact r.arcs i
  · apply hs.complete (fun e => hne (r.distinct _ _ e))
    rcases hs.sound (r.arcs j) with ⟨_, hord⟩ | ⟨havoid, hx, _⟩
    · obtain ⟨hg, _, hto⟩ := hord
      rw [same]
      refine ⟨hg, ?_, hto⟩
      rw [← same]
      exact r.mem_held hs i
    · have hdyn := r.not_static hij same hx
      rw [static _ havoid] at hdyn
      cases hdyn

/-- Two arcs of a ring with one arc between them have different labels. -/
lemma labels_ne (hs : s.Clean) (static : ∀ n ∈ s.avoidanceLocks, n.isStatic = true)
    (i : Fin (n + 2)) : r.labels i ≠ r.labels (i + 1 + 1) := by
  intro same
  have hne : i + 1 ≠ i + 1 + 1 := by simp
  have back := r.shortcut hs static same.symm hne.symm
  exact r.exposed _ _ hne (hs.settled static _ _ _ _ (r.arcs (i + 1)) back)

omit r in
/-- Of two values there are not three that differ in turn. -/
lemma eq_of_ne_of_ne {x y z p q : SectionId} (hx : x = p ∨ x = q) (hy : y = p ∨ y = q)
    (hz : z = p ∨ z = q) (hxy : x ≠ y) (hyz : y ≠ z) : x = z := by
  rcases hx with rfl | rfl <;> rcases hy with rfl | rfl <;> rcases hz with rfl | rfl <;>
    first | rfl | contradiction

/-- The labels of two neighbouring arcs of a ring with at most two labels are different: otherwise
the next two arcs have the other label, and the two sections take two locks in opposed orders. -/
lemma labels_ne_next (hs : s.Clean) (static : ∀ n ∈ s.avoidanceLocks, n.isStatic = true)
    {p q : SectionId} (two : ∀ i, r.labels i = p ∨ r.labels i = q) (i : Fin (n + 2)) :
    r.labels i ≠ r.labels (i + 1) := by
  intro same
  -- the labels of the five arcs from here on are `p p q q p`, or the same with `p` and `q` swapped
  have h02 := r.labels_ne hs static i
  have h13 := r.labels_ne hs static (i + 1)
  have h24 := r.labels_ne hs static (i + 1 + 1)
  have other : r.labels (i + 1 + 1) = r.labels (i + 1 + 1 + 1) :=
    eq_of_ne_of_ne (two _) (two _) (two _) h02.symm (same ▸ h13)
  have again : r.labels (i + 1 + 1 + 1 + 1) = r.labels (i + 1) :=
    eq_of_ne_of_ne (two _) (two _) (two _) h24.symm (same ▸ h02.symm)
  have hne : i + 1 + 1 ≠ i + 1 + 1 + 1 + 1 := fun e => h24 (congrArg r.labels e)
  have there := r.shortcut hs static other hne
  have back := r.shortcut hs static again hne.symm
  exact r.exposed _ _ hne (hs.settled static _ _ _ _ there back)

/-- A clean order has no ring of one or two sections. -/
lemma two_sections_absurd (hs : s.Clean) (static : ∀ n ∈ s.avoidanceLocks, n.isStatic = true)
    {p q : SectionId} (two : ∀ i, r.labels i = p ∨ r.labels i = q) : False := by
  -- neighbours differ, so labels alternate, and the third is the first again
  have h01 := r.labels_ne_next hs static two 0
  have h12 := r.labels_ne_next hs static two (0 + 1)
  have h02 := r.labels_ne hs static 0
  exact h02 (eq_of_ne_of_ne (two _) (two _) (two _) h01 h12)

end Ring

/-- A search that leaves no deadlock leaves no ring of one or two sections, whatever its length, if
its avoidance locks are static. -/
theorem no_ring_of_two_sections {a : Arena} {oracle : Oracle} {config : Config} {s : LockSearch}
    (h : a.searchLocks oracle config = .ok s) (free : s.status.isDeadlockFree = true)
    (static : ∀ n ∈ s.avoidanceLocks, n.isStatic = true) :
    ¬ ∃ (n : Nat) (r : Ring s n) (p q : SectionId), ∀ i, r.labels i = p ∨ r.labels i = q := by
  rintro ⟨n, r, p, q, two⟩
  exact r.two_sections_absurd (Arena.clean_of_deadlockFree h free) static two

/-- A grouped section for closed arenas: entered by the method with its own number, and with call
sites that are numbered like the methods they call. -/
def Section.closed (method : MethodId) (calls : List SiteId)
    (lockset : List LockKey) : Section where
  name := ""
  method := method
  owner := "App"
  invokes := calls
  lockset := lockset
  group := some 0
  setNumber := 1

/-- Two sections that enter each other and hold two locks in opposed orders. -/
def crossing : Arena where
  sections := [.closed 0 [1] [.value "A", .value "B"], .closed 1 [0] [.value "B", .value "A"]]
  groups := [{ number := 1, members := .ofList [0, 1] }]
  locks := { numbers := [(.value "A", 1), (.value "B", 2)], slots := [.empty, .empty] }

/-- Crossing sections are repaired by two avoidance locks, and no ring of two sections is left. -/
theorem no_ring_of_crossing :
    ∃ s, crossing.searchLocks (fun site => [site]) { repair := true } = .ok s ∧
      s.status = .repaired 2 ∧ s.avoidanceLocks = [-3, -4] ∧
      ¬ ∃ (n : Nat) (r : Ring s n) (p q : SectionId), ∀ i, r.labels i = p ∨ r.labels i = q :=
  ⟨_, Arena.searchLocks_eq_ok.mpr ⟨rfl, rfl⟩, rfl, by decide +kernel,
    no_ring_of_two_sections (Arena.searchLocks_eq_ok.mpr ⟨rfl, rfl⟩) rfl (by decide)⟩

/-- Three sections of one lock each, of which each enters the next. -/
def ringOfThree : Arena where
  sections := [.closed 0 [1] [.value "A"], .closed 1 [2] [.value "B"], .closed 2 [0] [.value "C"]]
  groups := [{ number := 1, members := .ofList [0, 1, 2] }]
  locks :=
    { numbers := [(.value "A", 1), (.value "B", 2), (.value "C", 3)]
      slots := [.empty, .empty, .empty] }

/-- Two sections that each take two locks in both orders, in an arena where the keys of two
avoidance locks to come are registered for locks in the heap. Each section holds the key that the
other gets. -/
def ringOfForged : Arena where
  sections :=
    [.closed 0 [2] [.value "A", .value "B", .avoidance 2 "App"],
      .closed 1 [3] [.value "C", .value "D", .avoidance 0 "App"],
      .closed 2 [] [.value "A", .value "B"],
      .closed 3 [] [.value "C", .value "D"]]
  groups := [{ number := 1, members := .ofList [0, 1, 2, 3] }]
  locks :=
    { numbers := [(.value "A", 1), (.value "B", 2), (.value "C", 3), (.value "D", 4),
        (.avoidance 0 "App", 5), (.avoidance 2 "App", 6)]
      slots := List.replicate 6 .empty }

/-- A search may leave a ring of three sections and call the order acyclic, and it may leave a ring
of two sections if a forged key makes its avoidance locks dynamic. -/
theorem rings_left :
    (∃ s, ringOfThree.searchLocks (fun site => [site]) {} = .ok s ∧ s.status = .acyclic ∧
      Nonempty (Ring s 1)) ∧
    ∃ s, ringOfForged.searchLocks (fun site => [site]) { repair := true } = .ok s ∧
      s.status = .repaired 4 ∧ Nonempty (Ring s 0) := by
  constructor
  · refine ⟨_, Arena.searchLocks_eq_ok.mpr ⟨rfl, rfl⟩, rfl, ⟨?_⟩⟩
    exact
      { locks := ![1, 2, 3]
        labels := ![0, 1, 2]
        distinct := by decide
        arcs := by decide +kernel
        exposed := by decide +kernel }
  · refine ⟨_, Arena.searchLocks_eq_ok.mpr ⟨rfl, rfl⟩, rfl, ⟨?_⟩⟩
    exact
      { locks := ![5, 6]
        labels := ![0, 1]
        distinct := by decide
        arcs := by decide +kernel
        exposed := by decide +kernel }

end Interlock
