import Interlock.Proofs.Checked.GroupOrder
import Interlock.Proofs.GroupOrder.Verdict
import Interlock.Proofs.LockOrder.Ring
import Mathlib.Data.Seq.Basic

/-!
# The bound on passes

A search with repair goes from conflict to conflict, and where it goes next depends on what it has
changed so far and not on how many passes it has left. The conflicts thus form a sequence, finite or
not, that the arena and the oracle determine, and the bound on passes cuts it off (`Truncates`): if
it ends before the bound, all its conflicts are repaired and one more pass finds none, and otherwise
those up to the bound are.

`LockSearch.conflicts` and `GroupSearch.conflicts` are these sequences: in each state the next pass
is made, and the conflict that it meets is repaired. `Walks` says that conflicts lead from one state
of a search to another. A run of each of the two searches is a walk (`LockSearch.run_walked`,
`GroupSearch.run_walked`), and a walk is a part of the sequence from its beginning on
(`Walks.eq_ofList`, `Walks.take_eq`).
-/

namespace Interlock

open Stream' (Seq)

/-! ## Walks -/

section Walks

variable {σ C : Type} {next : σ → Option (C × σ)} {p q : σ} {l : List C} {bound iterations : ℕ}
  {status : Status C}

/-- The conflicts lead from the first state to the second. -/
inductive Walks (next : σ → Option (C × σ)) : σ → List C → σ → Prop
  | refl (p : σ) : Walks next p [] p
  | step {p q r : σ} {c : C} {l : List C} :
    next p = some (c, q) → Walks next q l r → Walks next p (c :: l) r

namespace Walks

/-- A walk that goes no further is the whole sequence. -/
lemma eq_ofList (w : Walks next p l q) (ended : next q = none) :
    Seq.corec next p = Seq.ofList l := by
  induction w with
  | refl p => exact Seq.corec_nil next p ended
  | step h _ ih => rw [Seq.corec_cons h, ih ended, Seq.ofList_cons]

/-- A walk is the sequence from its beginning on. -/
lemma take_eq (w : Walks next p l q) : (Seq.corec next p).take l.length = l := by
  induction w with
  | refl p => rfl
  | step h _ ih => rw [Seq.corec_cons h, List.length_cons, Seq.take_succ_cons, ih]

lemma length_le (w : Walks next p l q) : (l.length : ℕ∞) ≤ (Seq.corec next p).length' := by
  induction w with
  | refl p => exact bot_le
  | step h _ ih =>
    rw [Seq.corec_cons h, List.length_cons, Seq.length'_cons, Nat.cast_succ]
    exact add_le_add_left ih 1

lemma length_eq (w : Walks next p l q) (ended : next q = none) :
    (Seq.corec next p).length' = l.length := by
  refine le_antisymm ?_ w.length_le
  rw [w.eq_ofList ended, Seq.length'_le_iff, Seq.TerminatedAt, Seq.ofList_get?]
  exact List.getElem?_eq_none (Nat.le_refl _)

end Walks

/-- What a search with a bound on passes makes of a sequence of conflicts. -/
structure Truncates (conflicts : Seq C) (bound : ℕ) (status : Status C) (iterations : ℕ)
    (repairs : List C) : Prop where
  /-- A sequence that ends before the bound is repaired as a whole, and one more pass finds
  nothing. -/
  whole : ∀ k : ℕ, conflicts.length' = k → k < bound → conflicts = Seq.ofList repairs ∧
    iterations = k + 1 ∧ status = if k = 0 then .acyclic else .repaired k
  /-- Of any other as many conflicts are repaired as there are passes. The last of them is named. -/
  part : bound ≤ conflicts.length' → repairs = conflicts.take bound ∧ repairs.length = bound ∧
    iterations = bound ∧ status = .didNotConverge bound (conflicts.get? (bound - 1))

/-- How a search ends that has a number of passes left and repairs some conflicts: a pass finds no
more of them, or the passes are used up. -/
inductive Stops (ended : Prop) (left bound : ℕ) (l repairs : List C) : Status C → ℕ → Prop
  | settled : l.length < left → ended → Stops ended left bound l repairs
      (if repairs.length = 0 then .acyclic else .repaired repairs.length) (repairs.length + 1)
  | spent : l.length = left →
    Stops ended left bound l repairs (.didNotConverge bound repairs.getLast?) bound

/-- Another conflict, and another pass. -/
lemma Stops.step {ended : Prop} {left : ℕ} {c : C} {repairs : List C}
    (h : Stops ended left bound l (repairs ++ [c] ++ l) status iterations) :
    Stops ended (left + 1) bound (c :: l) (repairs ++ c :: l) status iterations := by
  rw [List.append_assoc, List.singleton_append] at h
  cases h with
  | settled less ended => exact .settled (Nat.succ_lt_succ less) ended
  | spent all => exact .spent (congrArg Nat.succ all)

/-- A search that walks along a sequence of conflicts from its beginning on truncates it. -/
lemma Walks.truncates (w : Walks next p l q) (positive : 1 ≤ bound)
    (h : Stops (next q = none) bound bound l l status iterations) :
    Truncates (Seq.corec next p) bound status iterations l := by
  cases h with
  | settled less ended =>
    have length := w.length_eq ended
    constructor
    · intro k hk _
      obtain rfl : l.length = k := Nat.cast_inj.mp (length.symm.trans hk)
      exact ⟨w.eq_ofList ended, rfl, rfl⟩
    · intro few
      rw [length] at few
      exact absurd less (Nat.not_lt.mpr (Nat.cast_le.mp few))
  | spent all =>
    constructor
    · intro k hk few
      have le := w.length_le
      rw [hk, all] at le
      exact absurd few (Nat.not_lt.mpr (Nat.cast_le.mp le))
    · intro _
      have taken : (Seq.corec next p).take bound = l := all ▸ w.take_eq
      refine ⟨taken.symm, all, rfl, ?_⟩
      rw [List.getLast?_eq_getElem?, all, ← taken, Seq.getElem?_take,
        if_pos (Nat.sub_one_lt_of_le positive le_rfl)]

end Walks

variable {config : Config} {n : ℕ}

namespace LockSearch

variable {p q : Progress} {k : ℕ}

/-- The conflict that the next pass meets, with the lock that breaks it, and the state after the
repair. -/
def Progress.advance? (p : Progress) : Option (LockConflict × Progress) :=
  match LockOrder.pass p.arena p.permanent with
  | .ok _ => none
  | .error (o, c) => some ({ c with avoidanceLock := some (p.newLock c) }, p.repaired o c)

/-- The conflicts that the passes over the sections of an arena meet one after the other, each after
the repair of those before it. -/
def conflicts (a : Arena) (oracle : Oracle) : Seq LockConflict :=
  Seq.corec Progress.advance? (start a oracle)

/-- A number of repairs is a walk, and they are recorded. -/
lemma walks_after? (h : p.after? k = some q) :
    ∃ l, Walks Progress.advance? p l q ∧ l.length = k ∧ q.repairs = p.repairs ++ l := by
  induction k generalizing p with
  | zero =>
    cases h
    exact ⟨[], .refl _, rfl, (List.append_nil _).symm⟩
  | succ k ih =>
    obtain ⟨p1, h1, hk⟩ := Option.bind_eq_some_iff.mp h
    obtain ⟨o, c, he, rfl⟩ := next?_eq_some.mp h1
    have advances : p.advance? =
        some ({ c with avoidanceLock := some (p.newLock c) }, p.repaired o c) := by
      rw [Progress.advance?, he]
    obtain ⟨l, w, length, repairs⟩ := ih hk
    refine ⟨_, .step advances w, congrArg Nat.succ length, ?_⟩
    rw [repairs, repairs_repaired, List.append_assoc, List.singleton_append]

/-- A run with repair is a walk. -/
lemma run_walked (hr : config.repair = true) :
    ∃ l q, Walks Progress.advance? p l q ∧ (run config n p).repairs = p.repairs ++ l ∧
      Stops (q.advance? = none) n config.maxIterations l (p.repairs ++ l) (run config n p).status
        (run config n p).iterations := by
  obtain ⟨k, q, hk, hend⟩ := run_repairing (p := p) (n := n) hr
  obtain ⟨l, w, rfl, repairs⟩ := walks_after? hk
  refine ⟨l, q, w, ?_⟩
  rw [← repairs]
  rcases hend with ⟨less, o, ho, hend⟩ | ⟨all, hend⟩
  · rw [hend]
    exact ⟨rfl, .settled less (by rw [Progress.advance?, ho])⟩
  · rw [hend]
    exact ⟨rfl, .spent all⟩

/-- A run without repair that has repaired nothing before is over after one pass. -/
lemma run_once (hr : config.repair = false) (fresh : p.repairs = []) :
    (run config (n + 1) p).iterations = 1 ∧ (run config (n + 1) p).repairs = [] := by
  rw [run_reporting hr]
  cases LockOrder.pass p.arena p.permanent with
  | ok o => exact ⟨congrArg (·.length + 1) fresh, fresh⟩
  | error e => exact ⟨congrArg (·.length + 1) fresh, fresh⟩

end LockSearch

namespace GroupSearch

variable {a : Arena} {p : Progress}

/-- The conflict that the next pass meets, and the arena after the merge. -/
def advance? (config : Config) (a : Arena) : Option (GroupConflict × Arena) :=
  match pass a config with
  | .ok _ => none
  | .error (_, c) => (a.mergeGroups c.outerGroup c.innerGroup).toOption.map (c, ·)

/-- The conflicts that the passes over the groups of an arena meet one after the other, each after
the merges for those before it. -/
def conflicts (a : Arena) (oracle : Oracle) (config : Config) : Seq GroupConflict :=
  Seq.corec (advance? config) (a.ensureAllTargets oracle)

/-- A run with repair goes through, and is a walk. -/
lemma run_walked (hr : config.repair = true) (valid : p.arena.Valid) :
    ∃ s l b, run config n p = .ok s ∧ Walks (advance? config) p.arena l b ∧
    s.merges = p.merges ++ l ∧
      Stops (advance? config b = none) n config.maxIterations l (p.merges ++ l) s.status
        s.iterations := by
  induction n generalizing p with
  | zero =>
    refine ⟨_, [], p.arena, rfl, .refl _, (List.append_nil _).symm, ?_⟩
    rw [List.append_nil]
    exact .spent rfl
  | succ n ih =>
    unfold run
    cases h : pass p.arena config with
    | ok o =>
      refine ⟨_, [], p.arena, rfl, .refl _, (List.append_nil _).symm, ?_⟩
      rw [List.append_nil]
      refine .settled (Nat.succ_pos n) ?_
      rw [advance?, h]
    | error e =>
      obtain ⟨o, c⟩ := e
      simp only [hr, if_true]
      obtain ⟨b, hb, _, valid', _⟩ := Checked.merge_of_pass valid hr h
      have advances : advance? config p.arena = some (c, b) := by
        rw [advance?, h]
        dsimp only
        rw [hb]
        rfl
      -- whatever is logged, the state after the repair has the merged arena and one more merge
      have repaired : ∀ log, ∃ q, repair { p with log } o c = .ok q ∧ q.arena = b ∧
          q.merges = p.merges ++ [c] := fun log => ⟨_, bind_eq_ok.mpr ⟨b, hb, rfl⟩, rfl, rfl⟩
      obtain ⟨q, hq, rfl, merges⟩ := repaired _
      obtain ⟨s, l, d, hs, w, found, stops⟩ := ih (p := q) valid'
      rw [merges] at found stops
      refine ⟨s, c :: l, d, bind_eq_ok.mpr ⟨q, hq, hs⟩, .step advances w, ?_, stops.step⟩
      rw [found, List.append_assoc, List.singleton_append]

/-- A run without repair that has merged nothing before is over after one pass. -/
lemma run_once (hr : config.repair = false) (fresh : p.merges = []) :
    ∃ s, run config (n + 1) p = .ok s ∧ s.iterations = 1 ∧ s.merges = [] := by
  unfold run
  cases pass p.arena config with
  | ok o => exact ⟨_, rfl, congrArg (·.length + 1) fresh, fresh⟩
  | error e =>
    rw [hr]
    exact ⟨_, rfl, congrArg (·.length + 1) fresh, fresh⟩

end GroupSearch

/-! ## The two searches -/

/-- What the bound on passes does to the searches of an arena. -/
structure Arena.Bounds (a : Arena) (oracle : Oracle) (config : Config) : Prop where
  locks : config.repair = true → ∀ bound, 1 ≤ bound →
    ∃ s, a.searchLocks oracle { config with maxIterations := bound } = .ok s ∧
      Truncates (LockSearch.conflicts a oracle) bound s.status s.iterations s.repairs
  groups : config.repair = true → ∀ bound, 1 ≤ bound →
    ∃ s, a.searchGroups oracle { config with maxIterations := bound } = .ok s ∧
      Truncates (GroupSearch.conflicts a oracle config) bound s.status s.iterations s.merges
  /-- Without repair there is one pass, and nothing is repaired. -/
  reporting : config.repair = false → ∀ bound, 1 ≤ bound →
    (∃ s, a.searchLocks oracle { config with maxIterations := bound } = .ok s ∧
      s.iterations = 1 ∧ s.repairs = []) ∧
    ∃ s, a.searchGroups oracle { config with maxIterations := bound } = .ok s ∧
      s.iterations = 1 ∧ s.merges = []

/-- The conflicts that a search of a valid arena repairs are those that its passes meet one after
the other. The bound on passes only cuts this sequence off. -/
theorem Arena.bound_truncates {a : Arena} (valid : a.validate = .ok ()) (oracle : Oracle)
    (config : Config) :
    a.Bounds oracle config := by
  constructor
  case locks =>
    intro hr bound positive
    have bounded : { config with maxIterations := bound }.repair = true := hr
    obtain ⟨l, q, w, repairs, stops⟩ :=
      LockSearch.run_walked (n := bound) (p := LockSearch.start a oracle) bounded
    refine ⟨_, searchLocks_eq_ok.mpr ⟨valid, rfl⟩, ?_⟩
    dsimp only
    rw [repairs]
    exact w.truncates positive stops
  case groups =>
    intro hr bound positive
    have valid' : (GroupSearch.start a oracle).arena.Valid :=
      (validate_eq_ok.mp valid).ensureAllTargets
    have bounded : { config with maxIterations := bound }.repair = true := hr
    obtain ⟨s, l, b, hs, w, merges, stops⟩ := GroupSearch.run_walked (n := bound) bounded valid'
    refine ⟨s, GroupSearch.searchGroups_eq_ok.mpr ⟨valid, hs⟩, ?_⟩
    rw [merges]
    exact w.truncates positive stops
  case reporting =>
    intro hr bound positive
    obtain ⟨n, rfl⟩ := Nat.exists_eq_add_of_le' positive
    have bounded : { config with maxIterations := n + 1 }.repair = false := hr
    constructor
    · exact ⟨_, searchLocks_eq_ok.mpr ⟨valid, rfl⟩, LockSearch.run_once bounded rfl⟩
    · obtain ⟨s, hs, once⟩ :=
        GroupSearch.run_once (n := n) (p := GroupSearch.start a oracle) bounded rfl
      exact ⟨s, GroupSearch.searchGroups_eq_ok.mpr ⟨valid, hs⟩, once⟩

/-- Crossing sections have two conflicts of locks. With two passes both are repaired, and it takes a
third one to see that there are no more. Crossing groups have one conflict, and it takes a second
pass to see that there is no other. -/
theorem Arena.bound_truncates_crossing :
    (crossing.Bounds (fun site => [site]) { repair := true } ∧
      (∃ s, crossing.searchLocks (fun site => [site])
        { repair := true, maxIterations := 2 } = .ok s ∧
        s.repairs.length = 2 ∧ s.status = .didNotConverge 2 s.repairs.getLast?) ∧
      ∃ s, crossing.searchLocks (fun site => [site])
        { repair := true, maxIterations := 3 } = .ok s ∧
        s.repairs.length = 2 ∧ s.status = .repaired 2 ∧ s.iterations = 3) ∧
    crossingGroups.Bounds (fun site => [site]) { repair := true } ∧
      (∃ s, crossingGroups.searchGroups (fun site => [site])
          { repair := true, maxIterations := 1 } = .ok s ∧
        s.merges.length = 1 ∧ s.status = .didNotConverge 1 s.merges.getLast?) ∧
      ∃ s, crossingGroups.searchGroups (fun site => [site])
          { repair := true, maxIterations := 2 } = .ok s ∧
        s.merges.length = 1 ∧ s.status = .repaired 1 ∧ s.iterations = 2 :=
  ⟨⟨bound_truncates rfl _ _, ⟨_, searchLocks_eq_ok.mpr ⟨rfl, rfl⟩, rfl, rfl⟩,
    ⟨_, searchLocks_eq_ok.mpr ⟨rfl, rfl⟩, rfl, rfl, rfl⟩⟩,
    bound_truncates rfl _ _, ⟨_, rfl, rfl, rfl⟩, _, rfl, rfl, rfl, rfl⟩

end Interlock
