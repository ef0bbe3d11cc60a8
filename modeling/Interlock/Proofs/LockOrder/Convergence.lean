import Interlock.Proofs.LockOrder.Ring
import Mathlib.Data.Finset.Sym
import Mathlib.Data.Nat.Choose.Basic

/-!
# Convergence of repairs

The search on locks needs no more than a pass for each pair of grouped sections and one pass more,
where a section makes a pair with itself. A conflict stops a pass at an outer section and at an arc
back whose label the outer section does not exclude. Its repair gives both a new static lock, so
that they exclude each other from then on. The pairs of grouped sections that do not exclude each
other (`Arena.exposed`) therefore become fewer with every repair (`exposed_repaired`), and they
never become more (`Grows.excludes`).

The new lock is static as long as its key was not in the lock table before
(`LockTable.SerialsFree`). That is so in a table to which keys were added by expressions and by
synthesis only (`Arena.searchLocks_converges_of_filled`). With static avoidance locks no ring of two
sections is left either (`no_ring_of_serialsFree`).
-/

namespace Interlock

namespace Arena

variable {a b : Arena} {oracle : Oracle} {s t : SectionId}

lemma symm_excludes (a : Arena) : Std.Symm a.Excludes := ⟨fun _ _ h => h.symm⟩

/-- The pairs of grouped sections that may run at the same time. -/
def exposed (a : Arena) : Finset (Sym2 SectionId) :=
  a.groupedSections.toFinset.sym2.filter (· ∉ Sym2.fromRel a.symm_excludes)

/-- An exposed pair consists of grouped sections that do not exclude each other. -/
lemma mem_exposed :
    s(s, t) ∈ a.exposed ↔
      s ∈ a.groupedSections ∧ t ∈ a.groupedSections ∧ ¬ a.Excludes s t := by
  simp [exposed, and_assoc]

/-- There are no more exposed pairs than pairs. -/
lemma card_exposed_le :
    a.exposed.card ≤ a.groupedSections.length * (a.groupedSections.length + 1) / 2 := by
  have hle : a.groupedSections.toFinset.card ≤ a.groupedSections.length :=
    List.toFinset_card_le _
  calc
    a.exposed.card ≤ a.groupedSections.toFinset.sym2.card := Finset.card_filter_le _ _
    _ = (a.groupedSections.toFinset.card + 1).choose 2 := Finset.card_sym2 _
    _ ≤ (a.groupedSections.length + 1).choose 2 :=
      Nat.choose_le_choose 2 (Nat.succ_le_succ hle)
    _ = a.groupedSections.length * (a.groupedSections.length + 1) / 2 := by
      rw [Nat.choose_two_right, Nat.add_sub_cancel, Nat.mul_comm]

/-- Growth exposes no pair, and it covers one if two grouped sections newly exclude each other. -/
lemma Grows.card_exposed_lt (h : Grows a b) (hs : s ∈ a.groupedSections)
    (ht : t ∈ a.groupedSections) (hn : ¬ a.Excludes s t) (hx : b.Excludes s t) :
    b.exposed.card < a.exposed.card := by
  apply Finset.card_lt_card
  rw [Finset.ssubset_iff_of_subset]
  · exact ⟨s(s, t), mem_exposed.mpr ⟨hs, ht, hn⟩, fun hb => (mem_exposed.mp hb).2.2 hx⟩
  · intro z
    induction z with
    | _ u v =>
      intro hz
      obtain ⟨hu, hv, hb⟩ := mem_exposed.mp hz
      exact mem_exposed.mpr
        ⟨h.mem_groupedSections.mp hu, h.mem_groupedSections.mp hv, fun ha => hb (h.excludes ha)⟩

end Arena

namespace LockSearch

variable {p q r : Progress} {a : Arena} {oracle : Oracle} {k j : Nat} {o : LockOrder}
  {c : LockConflict}

/-- The permanent arcs are grounded, and every avoidance lock is static, the next one included. -/
structure Progress.Sound (p : Progress) : Prop where
  grounded : p.Grounded
  serials : p.arena.locks.SerialsFree
  static : ∀ ⦃c n⦄, c ∈ p.repairs → c.avoidanceLock = some n → n.isStatic = true

/-- A repair keeps a search sound. -/
lemma Progress.Sound.repaired (hp : p.Sound)
    (hs : LockOrder.Stopped p.arena p.permanent o c) : (p.repaired o c).Sound := by
  refine ⟨hp.grounded.repaired hs, ?_, ?_⟩
  · rw [locks_repaired]
    exact hp.serials.synthesize
  · intro d n hd hn
    rw [repairs_repaired, List.mem_append, List.mem_singleton] at hd
    rcases hd with hd | rfl
    · exact hp.static hd hn
    · cases hn
      exact hp.serials.nextLock_isStatic

lemma sound_start (free : a.locks.SerialsFree) : (start a oracle).Sound :=
  ⟨grounded_start, free, nofun⟩

/-- A search stays sound. -/
lemma sound_after? (free : a.locks.SerialsFree)
    (h : (start a oracle).after? k = some q) : q.Sound :=
  after?_induction (sound_start free) Progress.Sound.repaired h

/-- A repair makes two grouped sections exclude each other that did not do so before. -/
lemma Progress.Sound.covers (hp : p.Sound) (hs : LockOrder.Stopped p.arena p.permanent o c) :
    ∃ s ∈ p.arena.groupedSections, ∃ t ∈ p.arena.groupedSections,
      ¬ p.arena.Excludes s t ∧ (p.repaired o c).arena.Excludes s t := by
  obtain ⟨t, hback, hopen⟩ := hs.back
  have hg : t ∈ p.arena.groupedSections := hp.grounded.label_grouped hs hback
  have outer : c.outer ∈ implicated o c := List.mem_cons_self
  have label : t ∈ implicated o c :=
    List.mem_cons_of_mem _ (List.mem_append_right _ (LockOrder.mem_labels.mpr hback))
  refine ⟨c.outer, hs.orders.1, t, hg, hopen, ?_⟩
  exact Arena.excludes_iff.mpr
    ⟨p.newLock c, hp.serials.nextLock_isStatic, newLock_mem_held outer hs.orders.1,
      newLock_mem_held label hg⟩

/-- A repair leaves fewer exposed pairs. -/
lemma exposed_repaired (hp : p.Sound) (hs : LockOrder.Stopped p.arena p.permanent o c) :
    (p.repaired o c).arena.exposed.card < p.arena.exposed.card := by
  obtain ⟨s, hs', t, ht, hn, hx⟩ := hp.covers hs
  exact grows_repaired.card_exposed_lt hs' ht hn hx

/-- Each repair uses up an exposed pair. -/
lemma add_card_exposed_le (hp : p.Sound) (h : p.after? k = some q) :
    k + q.arena.exposed.card ≤ p.arena.exposed.card := by
  induction k generalizing p with
  | zero =>
    cases h
    omega
  | succ k ih =>
    obtain ⟨p1, h1, hk⟩ := Option.bind_eq_some_iff.mp h
    obtain ⟨o, c, he, rfl⟩ := next?_eq_some.mp h1
    have hs := LockOrder.pass_error he
    have less := exposed_repaired hp hs
    have rest := ih (hp.repaired hs) hk
    omega

/-- An answer without a conflict leaves no deadlock. -/
lemma status_finish : (p.finish o).status = .acyclic ∨ ∃ n, (p.finish o).status = .repaired n := by
  unfold Progress.finish
  by_cases hz : p.repairs.length = 0
  · exact .inl (if_pos hz)
  · exact .inr ⟨_, if_neg hz⟩

/-- What a search with repair comes to that has passes enough. -/
structure Converges (a : Arena) (oracle : Oracle) (config : Config) (s : LockSearch) : Prop where
  clean : s.status = .acyclic ∨ ∃ n, s.status = .repaired n
  /-- There is a pass for each repair, and one more. -/
  passes : s.iterations = s.repairs.length + 1 ∧ s.iterations ≤ config.maxIterations
  /-- After the repairs, one by one, a pass meets no conflict, and finds the order. -/
  settled : ∃ p, (start a oracle).after? s.repairs.length = some p ∧ p.arena = s.arena ∧
    p.repairs = s.repairs ∧ LockOrder.pass p.arena p.permanent = .ok s.order
  /-- Each repair makes two grouped sections exclude each other that did not before. -/
  covers : ∀ k p q, (start a oracle).after? k = some p → p.next? = some q →
    ∃ t ∈ a.groupedSections, ∃ u ∈ a.groupedSections, ¬ p.arena.Excludes t u ∧ q.arena.Excludes t u
  /-- No later repair undoes that. -/
  keeps : ∀ k p j q, (start a oracle).after? k = some p → p.after? j = some q →
    ∀ t u, p.arena.Excludes t u → q.arena.Excludes t u

/-- A run cannot use up its passes if there are more of them than pairs of grouped sections. -/
lemma run_converges (free : a.locks.SerialsFree) {config : Config} (repairs : config.repair = true)
    (passes : a.groupedSections.length * (a.groupedSections.length + 1) / 2 + 1 ≤
      config.maxIterations) :
    Converges a oracle config (run config config.maxIterations (start a oracle)) := by
  have grouped : (start a oracle).arena.groupedSections = a.groupedSections :=
    Arena.groupedSections_ensureAllTargets
  obtain ⟨k, q, hk, hend⟩ :=
    run_repairing (p := start a oracle) (n := config.maxIterations) repairs
  have enough : k < config.maxIterations := by
    have used := add_card_exposed_le (sound_start free) hk
    have pairs := (start a oracle).arena.card_exposed_le
    rw [grouped] at pairs
    omega
  have count : q.repairs.length = k := (length_repairs_after? hk).trans (Nat.zero_add k)
  subst count
  rcases hend with ⟨_, o, ho, hend⟩ | ⟨hlt, _⟩
  · rw [hend]
    refine ⟨status_finish, ⟨rfl, enough⟩, ⟨q, hk, rfl, rfl, ho⟩, ?_, ?_⟩
    · intro k p q hp hq
      obtain ⟨o, c, he, rfl⟩ := next?_eq_some.mp hq
      obtain ⟨t, ht, u, hu, hn, hx⟩ := (sound_after? free hp).covers (LockOrder.pass_error he)
      rw [(grows_after? hp).mem_groupedSections, grouped] at ht hu
      exact ⟨t, ht, u, hu, hn, hx⟩
    · intro k p j q _ hq t u hx
      exact (grows_after? hq).excludes hx
  · omega

end LockSearch

section Searches

variable {a : Arena} {oracle : Oracle} {config : Config} {s : LockSearch}

/-- All avoidance locks of a search are static if the serial numbers to come are free. -/
theorem Arena.avoidanceLocks_static (h : a.searchLocks oracle config = .ok s)
    (free : a.locks.SerialsFree) : ∀ n ∈ s.avoidanceLocks, n.isStatic = true := by
  obtain ⟨_, rfl⟩ := searchLocks_eq_ok.mp h
  obtain ⟨k, q, hk, _, hrepairs⟩ :=
    LockSearch.run_walks config config.maxIterations (LockSearch.start a oracle)
  intro n hn
  obtain ⟨c, hc, hcn⟩ := LockSearch.mem_avoidanceLocks.mp hn
  rw [hrepairs] at hc
  exact (LockSearch.sound_after? free hk).static hc hcn

/-- A search that leaves no deadlock leaves no ring of one or two sections if the serial numbers to
come are free. -/
theorem no_ring_of_serialsFree (h : a.searchLocks oracle config = .ok s)
    (free : a.locks.SerialsFree) (clean : s.status.isDeadlockFree = true) :
    ¬ ∃ (n : Nat) (r : Ring s n) (p q : SectionId), ∀ i, r.labels i = p ∨ r.labels i = q := by
  rintro ⟨n, r, p, q, two⟩
  exact r.two_sections_absurd (Arena.clean_of_deadlockFree h clean)
    (Arena.avoidanceLocks_static h free) two

/-- A search with repair that may make a pass for each pair of grouped sections, and one more,
leaves no deadlock. Each of its repairs makes two grouped sections exclude each other that did not
before, and no later repair undoes that. -/
theorem Arena.searchLocks_converges (valid : a.validate = .ok ()) (free : a.locks.SerialsFree)
    (repairs : config.repair = true)
    (passes : a.groupedSections.length * (a.groupedSections.length + 1) / 2 + 1 ≤
      config.maxIterations) :
    ∃ s, a.searchLocks oracle config = .ok s ∧ LockSearch.Converges a oracle config s :=
  ⟨_, searchLocks_eq_ok.mpr ⟨valid, rfl⟩, LockSearch.run_converges free repairs passes⟩

/-- Four passes are enough for the crossing sections. -/
theorem Arena.searchLocks_converges_crossing :
    ∃ s, crossing.searchLocks (fun site => [site]) { repair := true, maxIterations := 4 } = .ok s ∧
      LockSearch.Converges crossing (fun site => [site])
        { repair := true, maxIterations := 4 } s := by
  have valid : crossing.validate = .ok () := rfl
  have free : crossing.locks.SerialsFree := by
    intro serial owner _
    rfl
  have repairs : ({ repair := true, maxIterations := 4 } : Config).repair = true := rfl
  exact Arena.searchLocks_converges valid free repairs (by decide)

/-- The same for a lock table to which keys were added by expressions and by synthesis only. -/
theorem Arena.searchLocks_converges_of_filled (valid : a.validate = .ok ())
    (filled : a.locks.Filled) (repairs : config.repair = true)
    (passes : a.groupedSections.length * (a.groupedSections.length + 1) / 2 + 1 ≤
      config.maxIterations) :
    ∃ s, a.searchLocks oracle config = .ok s ∧ LockSearch.Converges a oracle config s :=
  ⟨_, searchLocks_eq_ok.mpr ⟨valid, rfl⟩,
    LockSearch.run_converges filled.serialsFree repairs passes⟩

end Searches

end Interlock
