import Interlock.Proofs.Analysis
import Interlock.Proofs.LockOrder.Created

/-!
# New locks first

After a search that leaves no deadlock, and a reordering, every section acquires the avoidance locks
that the search has created before all other locks, the newest first (`Arena.analyze_newestFirst`).

A lockset ends with the created locks that the section holds, each with an arc to every lock before
it (`LockPlan.LaterFirst`, from `LockSearch.Progress.Stacked`). A plan then takes a lock from this
end of the lockset before all locks that precede it there, whatever else it sees
(`entries_descend`): inside a cluster the lock is inserted at the front, since the locks come in the
order of the lockset, and a cluster that leads to another one is scheduled before it. What is left
are the positions in descending order, and then those of the lockset as it was at the start
(`positions_laterFirst`).
-/

namespace Interlock

/-- A list that descends where it is at a bound or above begins with its members from the bound
on. -/
lemma eq_filter_append_filter {l : List Nat} {m : Nat} (h : l.Pairwise fun i j => m ≤ j → j < i) :
    l = l.filter (fun i => decide (m ≤ i)) ++ l.filter fun i => !decide (m ≤ i) := by
  induction l with
  | nil => rfl
  | cons i rest ih =>
    obtain ⟨hi, hrest⟩ := List.pairwise_cons.mp h
    by_cases hm : m ≤ i
    · rw [List.filter_cons_of_pos (by simpa using hm), List.filter_cons_of_neg (by simpa using hm),
        List.cons_append, ← ih hrest]
    · -- nothing that follows is at the bound, since it would be below `i`
      have below : ∀ j ∈ rest, ¬ m ≤ j := by
        intro j hj hmj
        have less := hi j hj hmj
        omega
      have high : rest.filter (fun i => decide (m ≤ i)) = [] :=
        List.filter_eq_nil_iff.mpr fun j hj => by simpa using below j hj
      have low : rest.filter (fun i => !decide (m ≤ i)) = rest :=
        List.filter_eq_self.mpr fun j hj => by simpa using below j hj
      rw [List.filter_cons_of_neg (by simpa using hm), List.filter_cons_of_pos (by simpa using hm),
        high, low, List.nil_append]

lemma range_add_eq {m k : Nat} : List.range (m + k) = List.range m ++ List.range' m k := by
  have parts : List.range' 0 m ++ List.range' (0 + m) k = List.range' 0 (m + k) :=
    List.range'_append_1
  rw [List.range_eq_range', List.range_eq_range', ← parts, Nat.zero_add]

/-- A range is cut at a bound. -/
lemma filter_range_add {m k : Nat} :
    (List.range (m + k)).filter (fun i => decide (m ≤ i)) = List.range' m k ∧
      (List.range (m + k)).filter (fun i => !decide (m ≤ i)) = List.range m := by
  have below : ∀ i ∈ List.range m, ¬ m ≤ i := fun i hi => Nat.not_le.mpr (List.mem_range.mp hi)
  have above : ∀ i ∈ List.range' m k, m ≤ i := fun i hi => (List.mem_range'_1.mp hi).1
  rw [range_add_eq, List.filter_append, List.filter_append]
  constructor
  · have below : (List.range m).filter (fun i => decide (m ≤ i)) = [] :=
      List.filter_eq_nil_iff.mpr fun i hi => by simpa using below i hi
    have all : (List.range' m k).filter (fun i => decide (m ≤ i)) = List.range' m k :=
      List.filter_eq_self.mpr fun i hi => by simpa using above i hi
    rw [below, all, List.nil_append]
  · have all : (List.range m).filter (fun i => !decide (m ≤ i)) = List.range m :=
      List.filter_eq_self.mpr fun i hi => by simpa using below i hi
    have below : (List.range' m k).filter (fun i => !decide (m ≤ i)) = [] :=
      List.filter_eq_nil_iff.mpr fun i hi => by simpa using above i hi
    rw [all, below, List.append_nil]

/-- A permutation of a range that descends where it is at a bound or above begins with that part of
the range, reversed. -/
lemma eq_reverse_append {l : List Nat} {m k : Nat} (h : l.Pairwise fun i j => m ≤ j → j < i)
    (perm : l.Perm (List.range (m + k))) :
    ∃ rest, rest.Perm (List.range m) ∧ l = (List.range' m k).reverse ++ rest := by
  obtain ⟨high, low⟩ := filter_range_add (m := m) (k := k)
  -- a list that descends is the only one of its members
  have sorted : l.filter (fun i => decide (m ≤ i)) = (List.range' m k).reverse := by
    have members : (l.filter fun i => decide (m ≤ i)).Perm (List.range' m k).reverse := by
      rw [← high]
      exact (perm.filter _).trans (List.reverse_perm _).symm
    have descends : (l.filter fun i => decide (m ≤ i)).Pairwise fun i j => j < i := by
      refine (h.filter _).imp_of_mem ?_
      intro i j _ hj hij
      exact hij (by simpa using (List.mem_filter.mp hj).2)
    have reversed : (List.range' m k).reverse.Pairwise fun i j => j < i :=
      List.pairwise_reverse.mpr List.pairwise_lt_range'
    exact members.eq_of_pairwise (fun i j _ _ hji hij => absurd hij (Nat.lt_asymm hji)) descends
      reversed
  refine ⟨l.filter fun i => !decide (m ≤ i), ?_, ?_⟩
  · rw [← low]
    exact perm.filter _
  · rw [← sorted]
    exact eq_filter_append_filter h

namespace LockPlan

variable {p : LockPlan} {m k : Nat} {first : LockNum} {entry : LockNum × Nat}
  {entries sorted : List (LockNum × Nat)}

/-- From a position on, each lock has arcs to all locks before it. -/
def LaterFirst (p : LockPlan) (m : Nat) : Prop :=
  ∀ e ∈ p.locks.zipIdx, ∀ f ∈ p.locks.zipIdx, e.2 < f.2 → m ≤ f.2 → p.arc f.1 e.1 = true

/-- The entries from a position on come before all others, in descending order. -/
def Descend (m : Nat) (entries : List (LockNum × Nat)) : Prop :=
  entries.Pairwise fun e f => m ≤ f.2 → f.2 < e.2

/-- A later entry goes to the front if it is from the position on, and anywhere else if it is
not. -/
lemma insertLock_descend (later : ∀ e ∈ sorted, e.2 < entry.2)
    (arcs : m ≤ entry.2 → ∀ e ∈ sorted, p.arc entry.1 e.1 = true) (h : Descend m sorted) :
    Descend m (p.insertLock entry sorted) := by
  induction sorted with
  | nil => exact List.pairwise_singleton _ _
  | cons other rest ih =>
    unfold insertLock
    split
    · exact List.pairwise_cons.mpr ⟨fun f hf _ => later f hf, h⟩
    · rename_i after
      obtain ⟨hother, hrest⟩ := List.pairwise_cons.mp h
      refine List.pairwise_cons.mpr ⟨?_, ?_⟩
      · intro f hf hm
        rcases List.mem_cons.mp (insertLock_perm.mem_iff.mp hf) with rfl | hf
        · have precedes : p.precedes f.1 other.1 = true := by
            rw [precedes, arcs hm other List.mem_cons_self, Bool.true_or]
          exact absurd precedes after
        · exact hother f hf hm
      · exact ih (fun e he => later e (List.mem_cons_of_mem other he))
          (fun hm e he => arcs hm e (List.mem_cons_of_mem other he)) hrest

/-- Entries that come in ascending order are inserted so that they descend from the position on. -/
lemma foldl_insertLock_descend (h : p.LaterFirst m)
    (inside : ∀ e ∈ entries ++ sorted, e ∈ p.locks.zipIdx)
    (ascend : entries.Pairwise fun e f => e.2 < f.2)
    (later : ∀ e ∈ sorted, ∀ f ∈ entries, e.2 < f.2) (hs : Descend m sorted) :
    Descend m (entries.foldl (fun sorted entry => p.insertLock entry sorted) sorted) := by
  induction entries generalizing sorted with
  | nil => exact hs
  | cons entry rest ih =>
    obtain ⟨hentry, hrest⟩ := List.pairwise_cons.mp ascend
    rw [List.foldl_cons]
    refine ih ?_ hrest ?_ ?_
    · intro e he
      apply inside
      rw [List.mem_append, insertLock_perm.mem_iff, List.mem_cons] at he
      rw [List.cons_append, List.mem_cons, List.mem_append]
      tauto
    · intro e he f hf
      rcases List.mem_cons.mp (insertLock_perm.mem_iff.mp he) with rfl | he
      · exact hentry f hf
      · exact later e he f (List.mem_cons_of_mem entry hf)
    · refine insertLock_descend (fun e he => later e he entry List.mem_cons_self) ?_ hs
      intro hm e he
      exact h e (inside e (List.mem_append_right _ he)) entry (inside entry List.mem_cons_self)
        (later e he entry List.mem_cons_self) hm

lemma zipIdx_ascend : p.locks.zipIdx.Pairwise fun e f => e.2 < f.2 := by
  rw [← List.pairwise_map, List.zipIdx_map_snd]
  exact List.pairwise_lt_range'

/-- A cluster descends from the position on. -/
lemma cluster_descend (h : p.LaterFirst m) : Descend m (p.cluster p.leaderOf first) := by
  refine foldl_insertLock_descend h ?_ ?_ nofun List.Pairwise.nil
  · intro e he
    rw [List.append_nil] at he
    exact List.mem_of_mem_filter he
  · exact zipIdx_ascend.filter _

/-- The entries of a cluster are locks of the section, with the leader of the cluster. -/
lemma mem_cluster_iff {e : LockNum × Nat} :
    e ∈ p.cluster p.leaderOf first ↔ e ∈ p.locks.zipIdx ∧ p.leaderOf e.1 = first := by
  rw [cluster_perm.mem_iff, List.mem_filter, decide_eq_true_eq]

/-- A plan takes the locks from the position on first, in descending order of their positions. -/
lemma entries_descend (h : p.LaterFirst m) : Descend m p.entries := by
  refine List.pairwise_flatMap.mpr ⟨fun _ _ => cluster_descend h, ?_⟩
  refine List.pairwise_iff_forall_sublist.mpr ?_
  intro a b hab e inside f inside' hm
  obtain ⟨he, rfl⟩ := mem_cluster_iff.mp inside
  obtain ⟨hf, rfl⟩ := mem_cluster_iff.mp inside'
  have held : ∀ {g : LockNum × Nat}, g ∈ p.locks.zipIdx → g.1 ∈ p.locks := fun hg =>
    List.mem_of_getElem? (List.mk_mem_zipIdx_iff_getElem?.mp hg)
  have distinct : p.leaderOf e.1 ≠ p.leaderOf f.1 := by
    intro same
    have two := hab.nodup nodup_order
    rw [same] at two
    simp at two
  rcases Nat.lt_trichotomy e.2 f.2 with less | same | less
  · -- `f` has an arc to `e`, so its cluster leads to that of `e` and comes before it
    have arc : p.View f.1 e.1 := ⟨held hf, held he, h e he f hf less hm⟩
    have apart : ¬ Joined p.View f.1 e.1 := fun h =>
      distinct ((leaderOf_eq_leaderOf (held he) (held hf)).mpr h.symm)
    have before := order_of_leads (held hf) (held he) apart (.single arc)
    exact absurd before (sublist_pair_asymm nodup_order hab)
  · have he' := List.mk_mem_zipIdx_iff_getElem?.mp he
    rw [same, List.mk_mem_zipIdx_iff_getElem?.mp hf] at he'
    rw [Option.some.inj he'] at distinct
    exact absurd rfl distinct
  · exact less

/-- A plan takes the positions from a bound on in descending order, and then the others. -/
theorem positions_laterFirst (h : p.LaterFirst m) (count : p.locks.length = m + k) :
    ∃ rest, rest.Perm (List.range m) ∧ p.positions = (List.range' m k).reverse ++ rest := by
  have descend : p.positions.Pairwise fun i j => m ≤ j → j < i := by
    rw [positions_eq_map, List.pairwise_map]
    exact entries_descend h
  have perm : p.positions.Perm (List.range (m + k)) := count ▸ positions_perm
  exact eq_reverse_append descend perm

end LockPlan

namespace LockSearch.Progress.Stacked

variable {a : Arena} {p : Progress} {o : LockOrder} {t : SectionId} {s : Section}
  {keys : List LockKey}

/-- A section holds what it held at the start, and then the created locks that it holds. -/
lemma held_eq (h : p.Stacked a) (valid : a.Valid) (hs : a.sections[t]? = some s) :
    p.arena.held t = a.held t ++ p.createdIn t := by
  obtain ⟨news, hn, hk⟩ := h.further hs
  apply Arena.held_of_lockNums
  rw [Arena.lockNums_eq_ok]
  refine ⟨_, hn, ?_⟩
  rw [Section.adding, List.map_append, h.grows.map_find? (valid.map_find? hs), hk, List.map_append]

/-- A plan takes the created locks of a section from the end of its lockset. -/
lemma laterFirst (h : p.Stacked a) (valid : a.Valid) (hs : a.sections[t]? = some s)
    (labelled : ∀ {x y t}, p.permanent.Labelled x y t → o.Labelled x y t) {plan : LockPlan}
    (hp : plan.locks = p.arena.held t) (hv : ∀ x y, plan.View x y ↔ p.arena.View o t x y) :
    plan.LaterFirst s.lockset.length := by
  rintro ⟨y, i⟩ hy ⟨x, j⟩ hx less bound
  rw [List.mk_mem_zipIdx_iff_getElem?] at hx hy
  rw [hp] at hx hy
  -- the lock at the later position is a created one
  have created : x ∈ p.created := by
    have count : (a.held t).length = s.lockset.length := by
      have same := congrArg List.length (valid.map_find? hs)
      rwa [List.length_map, List.length_map, eq_comm] at same
    have split := h.held_eq valid hs
    rw [split, List.getElem?_append_right (by rw [count]; exact bound)] at hx
    exact List.mem_of_mem_filter (List.mem_of_getElem? hx)
  have pair : [y, x].Sublist (p.arena.held t) := pair_sublist_iff.mpr ⟨j, i, less, hx, hy⟩
  obtain ⟨hne, hl⟩ := h.arcs created pair
  have view : p.arena.View o t x y :=
    ⟨hne, pair.subset (List.mem_cons_of_mem y List.mem_cons_self),
      pair.subset List.mem_cons_self, t,
      labelled hl, .inl rfl⟩
  exact ((hv x y).mpr view).2.2

/-- A planned lockset begins with the keys of the created locks that the section holds, newest
first, and then has the keys of the start. -/
lemma plannedKeys_newest (h : p.Stacked a) (valid : a.Valid) (hs : a.sections[t]? = some s)
    (labelled : ∀ {x y t}, p.permanent.Labelled x y t → o.Labelled x y t)
    (planned : p.arena.PlannedKeys o t keys) :
    ∃ news old, keys = news ++ old ∧ old.Perm s.lockset ∧
      news.map p.arena.locks.find? = (p.createdIn t).reverse.map some := by
  obtain ⟨u, plan, hu, hn, hv, rfl⟩ := planned
  obtain ⟨news, hu', hk⟩ := h.further hs
  rw [hu] at hu'
  cases hu'
  have hp : plan.locks = p.arena.held t :=
    (Arena.held_of_lockNums (Arena.lockNums_eq_ok.mpr ⟨_, hu, hn⟩)).symm
  have count : plan.locks.length = s.lockset.length + news.length := by
    have same := congrArg List.length hn
    rw [List.length_map, List.length_map, Section.adding, List.length_append] at same
    exact same.symm
  obtain ⟨rest, perm, hpos⟩ :=
    LockPlan.positions_laterFirst (h.laterFirst valid hs labelled hp hv) count
  refine ⟨news.reverse, rest.filterMap ((s.adding news).lockset[·]?), ?_, ?_, ?_⟩
  · rw [hpos, List.filterMap_append, List.filterMap_reverse, LockPlan.filterMap_range',
      Section.adding, List.drop_left, List.take_length]
  · have kept := perm.filterMap ((s.adding news).lockset[·]?)
    rwa [List.range_eq_range', LockPlan.filterMap_range', Section.adding, List.drop_zero,
      List.take_left] at kept
  · rw [List.map_reverse, hk, List.map_reverse]

/-- A reordering puts the created locks of every section first, newest first. -/
lemma reorder_newest (h : p.Stacked a) (valid : a.Valid)
    (labelled : ∀ {x y t}, p.permanent.Labelled x y t → o.Labelled x y t)
    (labels : o.LabelsGrouped p.arena) (fault : (p.arena.reorder o).fault = none)
    (hs : a.sections[t]? = some s) :
    ∃ s' news old, (p.arena.reorder o).arena.sections[t]? = some s' ∧ s'.lockset = news ++ old ∧
      old.Perm s.lockset ∧
      news.map (p.arena.reorder o).arena.locks.find? = (p.createdIn t).reverse.map some := by
  have shuffled := Arena.reorder_shuffled labels fault
  rw [shuffled.locks]
  by_cases ht : t ∈ p.arena.groupedSections
  · obtain ⟨s', hs', planned⟩ := shuffled.planned ht
    obtain ⟨news, old, hkeys, perm, hk⟩ := h.plannedKeys_newest valid hs labelled planned
    exact ⟨s', news, old, hs', hkeys, perm, hk⟩
  · -- a section of no group holds no created lock
    have uncreated : p.createdIn t = [] :=
      List.filter_eq_nil_iff.mpr fun x hx hmem => ht (h.holders x hx t (by simpa using hmem))
    obtain ⟨news, hn, hk⟩ := h.further hs
    rw [uncreated, List.map_nil, List.map_eq_nil_iff] at hk
    subst hk
    obtain ⟨keys, hkeys, perm⟩ := shuffled.sections t
    rw [hn, Option.map_some] at hkeys
    refine ⟨_, [], keys, hkeys, rfl, ?_, by rw [uncreated]; rfl⟩
    have same := perm _ hn
    rwa [Section.adding_nil] at same

end LockSearch.Progress.Stacked

namespace Arena

variable {a b : Arena} {oracle : Oracle} {config : Config} {r : Analysis} {created : List LockNum}

/-- In the second arena every section acquires the created locks first, newest first. -/
structure NewestFirst (created : List LockNum) (a b : Arena) : Prop where
  /-- No lock is created twice. -/
  nodup : created.Nodup
  /-- A lockset is that of the first arena in some order, after the keys of the created locks that
  the section holds, in decreasing order of creation. -/
  locksets : ∀ {t : SectionId} {s}, a.sections[t]? = some s → ∃ s' news old,
    b.sections[t]? = some s' ∧ s'.lockset = news ++ old ∧ old.Perm s.lockset ∧
      news.map b.locks.find? = (created.reverse.filter (· ∈ b.held t)).map some
  /-- Sections that hold the same two created locks acquire them in the same order. -/
  agree : ∀ {t u x y}, x ∈ created → y ∈ created → x ∈ b.held t → y ∈ b.held t →
    x ∈ b.held u → y ∈ b.held u → (Before (b.held t) x y ↔ Before (b.held u) x y)
  /-- A section acquires a created lock before all locks of the first arena. -/
  first : ∀ {t x y}, x ∈ created → x ∈ b.held t → y ∈ a.held t → Before (b.held t) x y

/-- The created locks are taken first if the locksets begin with them and no section held them
before. -/
lemma NewestFirst.of_locksets (nodup : created.Nodup) (fresh : ∀ x ∈ created, ∀ t, x ∉ a.held t)
    (inside : ∀ {t : SectionId} {s'}, b.sections[t]? = some s' → ∃ s, a.sections[t]? = some s)
    (locksets : ∀ {t : SectionId} {s}, a.sections[t]? = some s → ∃ s' news old,
      b.sections[t]? = some s' ∧ s'.lockset = news ++ old ∧ old.Perm s.lockset ∧
        news.map b.locks.find? = (created.reverse.filter (· ∈ b.held t)).map some) :
    NewestFirst created a b := by
  have begins : ∀ {t x}, x ∈ b.held t →
      ∃ rest, b.held t = created.reverse.filter (· ∈ b.held t) ++ rest := by
    intro t x hx
    obtain ⟨s', _, hs', _⟩ := mem_held.mp hx
    obtain ⟨s, hs⟩ := inside hs'
    obtain ⟨s'', news, old, hs'', hk, _, hn⟩ := locksets hs
    refine ⟨old.filterMap b.locks.find?, ?_⟩
    have numbers : news.filterMap b.locks.find? = created.reverse.filter (· ∈ b.held t) := by
      have mapped := congrArg (List.filterMap id) hn
      rwa [List.filterMap_map, List.filterMap_map, Function.id_comp, Function.id_comp,
        List.filterMap_some] at mapped
    rw [← numbers, ← List.filterMap_append, ← hk, held, hs'']
  have order : ∀ {t x y}, x ∈ created → y ∈ created → x ∈ b.held t → y ∈ b.held t →
      (Before (b.held t) x y ↔ Before created.reverse x y) := by
    intro t x y hx hy htx hty
    obtain ⟨rest, hb⟩ := begins htx
    have front : ∀ {z}, z ∈ created → z ∈ b.held t →
        z ∈ created.reverse.filter (· ∈ b.held t) := fun hz hzt =>
      List.mem_filter.mpr ⟨List.mem_reverse.mpr hz, by simpa using hzt⟩
    have cut : Before (created.reverse.filter (· ∈ b.held t)) x y ↔ Before created.reverse x y :=
      before_filter (by simpa using htx) (by simpa using hty)
    rw [← cut, ← before_append_left (front hx htx) (front hy hty), ← hb]
  refine ⟨nodup, locksets, ?_, ?_⟩
  · intro t u x y hx hy htx hty hux huy
    exact (order hx hy htx hty).trans (order hx hy hux huy).symm
  · intro t x y hx htx hty
    obtain ⟨rest, hb⟩ := begins htx
    rw [hb]
    refine before_append (List.mem_filter.mpr ⟨List.mem_reverse.mpr hx, by simpa using htx⟩) ?_
    intro hy
    exact fresh y (List.mem_reverse.mp (List.mem_of_mem_filter hy)) t hty

/-- After an analysis of locksets that leaves no deadlock and puts the locksets in order, every
section acquires the avoidance locks that were created first, newest first. Every table that the
operations lead to has given out its numbers (`LockTable.Reached.allocated`). -/
theorem analyze_newestFirst (mode : config.mode = .lockset) (asked : config.reorderLocksets = true)
    (free : a.locks.SerialsFree) (allocated : a.locks.Allocated)
    (hr : a.analyze oracle config = .ok r) (clean : r.report.status.isDeadlockFree = true) :
    NewestFirst (r.report.avoidanceLocks.map (·.lock)) a r.arena := by
  obtain ⟨found, hf, reports⟩ := exists_found mode hr
  rw [reports.status, Status.isDeadlockFree_map] at clean
  obtain ⟨q, stacked, harena, hcreated, labelled⟩ := stacked_found hf clean free allocated
  have created : r.report.avoidanceLocks.map (·.lock) = q.created := by
    rw [reports.avoidanceLocks, List.map_map, hcreated]
    exact List.map_id _
  have arena : r.arena = (q.arena.reorder found.order).arena := by
    rw [reports.arena, asked, clean, harena]
    rfl
  have labels := (clean_of_deadlockFree hf clean).grouped
  have fault := (reorder_found hf clean).1
  rw [harena] at labels fault
  have valid : (a.ensureAllTargets oracle).Valid :=
    (validate_eq_ok.mp (searchLocks_eq_ok.mp hf).1).ensureAllTargets
  have shuffled := reorder_shuffled labels fault
  rw [created, arena]
  refine .of_locksets stacked.nodup ?_ ?_ ?_
  · intro x hx t ht
    obtain ⟨_, key, _, _, hk⟩ := mem_held.mp ht
    exact stacked.fresh x hx key hk
  · intro t s' hs'
    obtain ⟨keys, hkeys, _⟩ := shuffled.sections t
    obtain ⟨more, hmore⟩ := stacked.grows.sections t
    rw [hkeys, hmore, sections_ensureAllTargets] at hs'
    cases hs : a.sections[t]? with
    | none =>
      rw [hs] at hs'
      cases hs'
    | some s => exact ⟨s, rfl⟩
  · intro t s hs
    have hs0 : (a.ensureAllTargets oracle).sections[t]? = some (s.withTargets oracle) := by
      rw [sections_ensureAllTargets, hs, Option.map_some]
    obtain ⟨s', news, old, hs', hk, perm, hn⟩ :=
      stacked.reorder_newest valid labelled labels fault hs0
    obtain ⟨targets, ht⟩ := s.exists_withTargets oracle
    rw [ht] at perm
    refine ⟨s', news, old, hs', hk, perm, ?_⟩
    have same : (q.createdIn t).reverse =
        q.created.reverse.filter (· ∈ (q.arena.reorder found.order).arena.held t) := by
      rw [LockSearch.Progress.createdIn, ← List.filter_reverse]
      simp only [shuffled.mem_held]
    rw [hn, same]

/-- The crossing sections acquire the avoidance locks that they hold first, newest first. -/
theorem analyze_newestFirst_crossing :
    ∃ r, crossing.analyze (fun site => [site]) (.ofPreset .repair) = .ok r ∧
      r.report.avoidanceLocks.map (·.lock) = [-3, -4] ∧
      r.arena.held 0 = [-4, -3, 2, 1] ∧ r.arena.held 1 = [-4, 1, 2] ∧
      NewestFirst [-3, -4] crossing r.arena := by
  obtain ⟨r, hr, status, locks, held⟩ :
      ∃ r, crossing.analyze (fun site => [site]) (.ofPreset .repair) = .ok r ∧
        r.report.status = .repaired 2 ∧ r.report.avoidanceLocks.map (·.lock) = [-3, -4] ∧
        r.arena.held 0 = [-4, -3, 2, 1] ∧ r.arena.held 1 = [-4, 1, 2] :=
    ⟨_, rfl, rfl, by decide +kernel, by decide +kernel, by decide +kernel⟩
  have free : crossing.locks.SerialsFree := by
    intro serial owner _
    rfl
  have allocated : crossing.locks.Allocated := LockTable.allocated_of_numbers (by decide)
  have clean : r.report.status.isDeadlockFree = true := by
    rw [status]
    rfl
  exact ⟨r, hr, locks, held.1, held.2, locks ▸ analyze_newestFirst rfl rfl free allocated hr clean⟩

end Arena

end Interlock
