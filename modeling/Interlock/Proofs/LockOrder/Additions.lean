import Interlock.Proofs.LockOrder.Created
import Interlock.Proofs.LockOrder.Ring

/-!
# What a search on locks adds

A search changes an arena by the targets that it makes known and by its repairs, however it ends. A
repair takes the next slot of the lock table (`slots_repaired`), so the created locks have
consecutive numbers. It gives its lock to the sections that the conflict involves, and no later
repair gives that lock to another section or takes it away (`mem_held_repaired_iff`).
`Progress.Tallied` says this of all repairs so far, each with the pass that has met its conflict;
every step of a walk keeps it (`tallied_after?`).

`Arena.searchLocks_adds` puts this together with the locksets, which grow by created locks only
(`Progress.Stacked.further`).
-/

namespace Interlock

namespace LockSearch

variable {a : Arena} {oracle : Oracle} {p q : Progress} {k : Nat} {o : LockOrder}
  {c : LockConflict} {t : SectionId} {u : Section} {x : LockNum}

lemma Progress.Stacked.mem_held_repaired_iff (h : p.Stacked a)
    (hs : LockOrder.Stopped p.arena p.permanent o c) :
    x ∈ (p.repaired o c).arena.held t ↔
      x ∈ p.arena.held t ∨ (x = p.newLock c ∧ t ∈ implicated o c) := by
  constructor
  · exact h.mem_held_repaired
  · rintro (hx | ⟨rfl, ht⟩)
    · exact grows_repaired.held hx
    · exact newLock_mem_held ht (h.grounded.implicated_grouped hs ht)

/-- A section without a group holds no created lock. -/
lemma Progress.Stacked.createdIn_ungrouped (h : p.Stacked a) (hs : p.arena.sections[t]? = some u)
    (hg : u.isGrouped = false) : p.createdIn t = [] := by
  refine List.filter_eq_nil_iff.mpr fun x hx held => ?_
  obtain ⟨s, hs', hg'⟩ := Arena.mem_groupedSections.mp (h.holders x hx t (of_decide_eq_true held))
  rw [hs] at hs'
  cases hs'
  rw [hg] at hg'
  cases hg'

lemma Progress.Stacked.slots_repaired (h : p.Stacked a) :
    (p.repaired o c).arena.locks.slots = p.arena.locks.slots ++ [.empty] := by
  rw [locks_repaired]
  exact h.serials.slots_synthesize

/-- The number of the lock that the given repair of a search creates. -/
def createdLock (a : Arena) (i : Nat) : LockNum := -((a.locks.slotCount + i : Nat) : Int)

/-- What the repairs of a search have added so far, one by one. -/
structure Progress.Tallied (a : Arena) (oracle : Oracle) (p : Progress) : Prop
    extends p.Stacked (start a oracle).arena where
  groups : p.arena.groups = a.groups
  serial : p.arena.locks.nextSerial = a.locks.nextSerial + p.repairs.length
  slots : p.arena.locks.slots = a.locks.slots ++ List.replicate p.repairs.length .empty
  created_eq : p.created = (List.range p.repairs.length).map (createdLock a)
  /-- The lock of a repair is held by those sections that the conflict involves which it breaks. -/
  repairs : ∀ i c, p.repairs[i]? = some c → ∃ q o d, (start a oracle).after? i = some q ∧
    LockOrder.pass q.arena q.permanent = .error (o, d) ∧
    c = { d with avoidanceLock := some (createdLock a i) } ∧
    ∀ t, createdLock a i ∈ p.arena.held t ↔ t ∈ implicated o d

namespace Progress.Tallied

lemma slotCount (h : p.Tallied a oracle) :
    p.arena.locks.slotCount = a.locks.slotCount + p.repairs.length := by
  rw [LockTable.slotCount, h.slots, List.length_append, List.length_replicate]
  exact Nat.add_right_comm ..

lemma newLock_eq (h : p.Tallied a oracle) : p.newLock c = createdLock a p.repairs.length := by
  rw [newLock, h.serials.nextLock_eq, h.slotCount, createdLock]

/-- A repair of the conflict that a pass has met keeps the tally. -/
lemma repaired (h : p.Tallied a oracle) (walk : (start a oracle).after? p.repairs.length = some p)
    (hp : LockOrder.pass p.arena p.permanent = .error (o, c)) :
    (p.repaired o c).Tallied a oracle where
  toStacked := h.toStacked.repaired (LockOrder.pass_error hp)
  groups := groups_repaired.trans h.groups
  serial := by
    rw [locks_repaired, LockTable.nextSerial_synthesize, h.serial, repairs_repaired,
      List.length_append, List.length_singleton]
    rfl
  slots := by
    rw [h.slots_repaired, h.slots, repairs_repaired, List.length_append, List.length_singleton,
      List.replicate_succ', List.append_assoc]
  created_eq := by
    rw [created_repaired, h.created_eq, h.newLock_eq, repairs_repaired, List.length_append,
      List.length_singleton, List.range_succ, List.map_append]
    rfl
  repairs := by
    have stopped := LockOrder.pass_error hp
    intro i d hd
    rw [repairs_repaired, List.getElem?_append] at hd
    split at hd
    · -- an old lock is not the new one, so the same sections hold it
      obtain ⟨q, o', met, hq, hm, hc, held⟩ := h.repairs i d hd
      refine ⟨q, o', met, hq, hm, hc, fun t => ?_⟩
      have old : createdLock a i ∈ p.created := by
        rw [h.created_eq]
        exact List.mem_map_of_mem (List.mem_range.mpr ‹_›)
      have hne : createdLock a i ≠ p.newLock c := by
        intro e
        rw [e] at old
        exact h.newLock_not_mem_created old
      rw [h.mem_held_repaired_iff stopped, ← held t]
      exact or_iff_left fun ⟨e, _⟩ => hne e
    · rename_i last
      rw [List.getElem?_singleton] at hd
      split at hd
      · rename_i first
        cases hd
        have hi : i = p.repairs.length :=
          Nat.le_antisymm (Nat.sub_eq_zero_iff_le.mp first) (Nat.not_lt.mp last)
        subst hi
        refine ⟨p, o, c, walk, hp, by rw [h.newLock_eq], fun t => ?_⟩
        rw [← h.newLock_eq (c := c), h.mem_held_repaired_iff stopped,
          or_iff_right h.newLock_not_mem_held]
        exact and_iff_right rfl
      · cases hd

end Progress.Tallied

lemma tallied_start (valid : a.Valid) (free : a.locks.SerialsFree) (allocated : a.locks.Allocated) :
    (start a oracle).Tallied a oracle where
  toStacked := stacked_start valid free allocated
  groups := rfl
  serial := rfl
  slots := (List.append_nil _).symm
  created_eq := rfl
  repairs := nofun

/-- The repairs of a walk are tallied. -/
theorem tallied_after? (valid : a.Valid) (free : a.locks.SerialsFree)
    (allocated : a.locks.Allocated)
    (h : (start a oracle).after? k = some q) : q.Tallied a oracle := by
  induction k generalizing q with
  | zero =>
    cases h
    exact tallied_start valid free allocated
  | succ k ih =>
    rw [after?_succ] at h
    obtain ⟨p, hp, hq⟩ := Option.bind_eq_some_iff.mp h
    obtain ⟨o, c, met, rfl⟩ := next?_eq_some.mp hq
    have count : p.repairs.length = k := (length_repairs_after? hp).trans (Nat.zero_add k)
    exact (ih hp).repaired (by rw [count, hp]) met

/-- A search has added its avoidance locks to an arena, and nothing else but targets. -/
structure Adds (a : Arena) (oracle : Oracle) (s : LockSearch) : Prop where
  /-- A lockset is that of before, and then the avoidance locks that the section holds, in order of
  creation. -/
  locksets : ∀ (t : SectionId) (u : Section), a.sections[t]? = some u → ∃ news,
    s.arena.sections[t]? = some ((u.withTargets oracle).adding news) ∧
    news.map s.arena.locks.find? = (s.avoidanceLocks.filter (· ∈ s.arena.held t)).map some
  ungrouped : ∀ (t : SectionId) (u : Section), a.sections[t]? = some u → u.isGrouped = false →
    s.arena.sections[t]? = some (u.withTargets oracle)
  absent : ∀ t : SectionId, a.sections[t]? = none → s.arena.sections[t]? = none
  groups : s.arena.groups = a.groups
  /-- Each repair has created one lock, with the negative of the next slot as number. -/
  created : s.avoidanceLocks =
    (List.range s.repairs.length).map fun i => -((a.locks.slotCount + i : Nat) : Int)
  distinct : s.avoidanceLocks.Nodup
  slots : s.arena.locks.slots = a.locks.slots ++ List.replicate s.repairs.length .empty
  serial : s.arena.locks.nextSerial = a.locks.nextSerial + s.repairs.length
  keys : ∀ key n, a.locks.find? key = some n → s.arena.locks.find? key = some n
  /-- The repairs are those of a walk that ends in the arena that is left. -/
  walk : ∃ q, (start a oracle).after? s.repairs.length = some q ∧ q.arena = s.arena ∧
    q.repairs = s.repairs
  /-- The lock of a repair is held by the outer section of its conflict, and by those that labelled
  an arc between its two locks in the order of the pass that has met it. -/
  holders : ∀ i c, s.repairs[i]? = some c → ∃ q o d n, (start a oracle).after? i = some q ∧
    LockOrder.pass q.arena q.permanent = .error (o, d) ∧
    n = -((a.locks.slotCount + i : Nat) : Int) ∧ c = { d with avoidanceLock := some n } ∧
    ∀ t, n ∈ s.arena.held t ↔
      t = c.outer ∨ t ∈ o.labels c.held c.requested ∨ t ∈ o.labels c.requested c.held
  valid : s.arena.validate = .ok ()

end LockSearch

/-- A search for deadlocks on locks adds avoidance locks where its conflicts call for them, and
changes nothing else but targets, however it ends. Every table that the operations build has given
out its numbers (`LockTable.Reached.allocated`). -/
theorem Arena.searchLocks_adds {a : Arena} {oracle : Oracle} {config : Config}
    (valid : a.validate = .ok ()) (free : a.locks.SerialsFree) (allocated : a.locks.Allocated) :
    ∃ s, a.searchLocks oracle config = .ok s ∧ s.Adds a oracle := by
  refine ⟨_, searchLocks_eq_ok.mpr ⟨valid, rfl⟩, ?_⟩
  obtain ⟨k, q, hk, arena, repairs⟩ :=
    LockSearch.run_walks config config.maxIterations (LockSearch.start a oracle)
  generalize LockSearch.run config config.maxIterations (LockSearch.start a oracle) =
    s at arena repairs
  have tallied := LockSearch.tallied_after? (validate_eq_ok.mp valid) free allocated hk
  have count : q.repairs.length = k := (LockSearch.length_repairs_after? hk).trans (Nat.zero_add k)
  have created : s.avoidanceLocks = q.created := by
    rw [LockSearch.avoidanceLocks, repairs]
    rfl
  have further : ∀ {t : SectionId} {u : Section}, a.sections[t]? = some u → ∃ news,
      q.arena.sections[t]? = some ((u.withTargets oracle).adding news) ∧
        news.map q.arena.locks.find? = (q.createdIn t).map some := by
    intro t u hu
    refine tallied.further ?_
    show (a.ensureAllTargets oracle).sections[t]? = _
    rw [sections_ensureAllTargets, hu]
    rfl
  constructor
  case locksets =>
    intro t u hu
    rw [arena, created]
    exact further hu
  case ungrouped =>
    intro t u hu hg
    obtain ⟨news, hq, hn⟩ := further hu
    have plain : ((u.withTargets oracle).adding news).isGrouped = false := by
      obtain ⟨targets, ht⟩ := u.exists_withTargets oracle
      rw [ht]
      exact hg
    rw [tallied.createdIn_ungrouped hq plain, List.map_nil, List.map_eq_nil_iff] at hn
    rw [arena, hq, hn, Section.adding_nil]
  case absent =>
    intro t missing
    obtain ⟨more, hq⟩ := tallied.grows.sections t
    have missing' : (a.ensureAllTargets oracle).sections[t]? = none := by
      rw [sections_ensureAllTargets, missing]
      rfl
    rw [arena, hq]
    exact congrArg _ missing'
  case groups => rw [arena, tallied.groups]
  case created => rw [created, tallied.created_eq, repairs]; rfl
  case distinct =>
    rw [created]
    exact tallied.nodup
  case slots => rw [arena, repairs, tallied.slots]
  case serial => rw [arena, repairs, tallied.serial]
  case keys =>
    intro key n hn
    rw [arena]
    exact tallied.grows.numbers hn
  case walk => exact ⟨q, by rw [repairs, count, hk], arena.symm, repairs.symm⟩
  case holders =>
    intro i c hc
    rw [repairs] at hc
    obtain ⟨p, o, d, hp, met, hd, held⟩ := tallied.repairs i c hc
    refine ⟨p, o, d, _, hp, met, rfl, hd, fun t => ?_⟩
    subst hd
    rw [arena]
    refine (held t).trans ?_
    rw [LockSearch.implicated, List.mem_cons, List.mem_append]
  case valid =>
    rw [arena]
    exact validate_eq_ok.mpr tallied.valid

/-- Two repairs give the crossing sections two locks. -/
theorem Arena.searchLocks_adds_crossing :
    crossing.validate = .ok () ∧ crossing.locks.SerialsFree ∧ crossing.locks.Allocated ∧
    ∃ s, crossing.searchLocks (fun site => [site]) { repair := true } = .ok s ∧
      s.status = .repaired 2 ∧ s.avoidanceLocks = [-3, -4] ∧
      s.Adds crossing fun site => [site] := by
  have free : crossing.locks.SerialsFree := by
    intro serial owner _
    rfl
  have allocated : crossing.locks.Allocated := LockTable.allocated_of_numbers (by decide)
  obtain ⟨s, hs, adds⟩ : ∃ s,
      crossing.searchLocks (fun site => [site]) { repair := true } = .ok s ∧
        s.Adds crossing fun site => [site] := searchLocks_adds rfl free allocated
  obtain ⟨s', hs', status, locks⟩ :
      ∃ s, crossing.searchLocks (fun site => [site]) { repair := true } = .ok s ∧
        s.status = .repaired 2 ∧ s.avoidanceLocks = [-3, -4] :=
    ⟨_, rfl, rfl, by decide +kernel⟩
  rw [hs] at hs'
  cases hs'
  exact ⟨rfl, free, allocated, s, hs, status, locks, adds⟩

end Interlock
