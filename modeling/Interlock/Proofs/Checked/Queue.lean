import Interlock.Proofs.Checked.Plan

/-!
# The rounds of the queue

`plan_ok` says that a checked plan goes through, whatever the order of the components, and gives the
positions of `LockPlan.positions`. The induction is on the rounds of the queue. It is carried by
`Waits`: the counter of a component is the count of the components before it that are not done, so
it is not zero when one of these goes (`Waits.release`). The component that is taken out is the one
that `LockPlan.schedule` takes (`Waits.next?_eq`), and its members are those of the cluster of its
leader (`Components.members_ok`).
-/

namespace Interlock.Checked

open Relation (TransGen ReflTransGen)

variable {p : LockPlan} {cs : List (List LockNum)} {arcs : List (LockNum × LockNum)} {m n : LockNum}
  {i j x : Nat}

/-! ## Waiting -/

lemma before_asymm {e f : Waiting} (h : e.before f = true) : f.before e = false := by
  match e, f with
  | (none, i), (none, j) =>
    simp only [Waiting.before, decide_eq_true_eq, decide_eq_false_iff_not] at h ⊢
    omega
  | (none, _), (some _, _) => rfl
  | (some _, _), (none, _) => cases h
  | (some m, i), (some n, j) =>
    simp only [Waiting.before, Bool.or_eq_true, Bool.and_eq_true, decide_eq_true_eq,
      Bool.or_eq_false_iff, Bool.and_eq_false_iff, decide_eq_false_iff_not] at h ⊢
    rcases h with less | ⟨rfl, less⟩
    · exact ⟨Int.lt_asymm less, .inl (Int.ne_of_gt less)⟩
    · exact ⟨Int.lt_irrefl m, .inr (Nat.lt_asymm less)⟩

lemma before_irrefl (e : Waiting) : e.before e = false := by
  cases h : e.before e with
  | false => rfl
  | true => rw [before_asymm h] at h; cases h

/-- What comes before all others in the queue is taken out. -/
lemma next?_eq {ready : List Waiting} {e : Waiting} (he : e ∈ ready)
    (first : ∀ f ∈ ready, f ≠ e → e.before f = true) : next? ready = some e := by
  have least : ready.all (fun f => !f.before e) = true := by
    rw [List.all_eq_true]
    intro f hf
    by_cases same : f = e
    · rw [same, before_irrefl]
      rfl
    · rw [before_asymm (first f hf same)]
      rfl
  have found : (next? ready).isSome = true := List.find?_isSome.mpr ⟨e, he, least⟩
  obtain ⟨f, hf⟩ := Option.isSome_iff_exists.mp found
  by_cases same : f = e
  · rw [hf, same]
  · have accepted := List.find?_some (p := fun e => ready.all fun g => !g.before e) hf
    have refused := List.all_eq_true.mp accepted e he
    rw [first f (List.mem_of_find?_eq_some hf) same] at refused
    cases refused

/-- The components that are not done wait if nothing is pending before them. -/
structure Waits (cs : List (List LockNum)) (done : Finset Nat) (pending : Nat → Finset Nat)
    (q : Queue) : Prop where
  counted : Counted cs.length q.inDegree pending
  nodup : q.ready.Nodup
  ready : ∀ e, e ∈ q.ready ↔
    ∃ j < cs.length, e = (some (leadOf cs j), j) ∧ j ∉ done ∧ pending j = ∅

variable {q : Queue} {done : Finset Nat} {pending : Nat → Finset Nat}

lemma Components.waiting_ok (h : Splits p cs)
    (hi : i < cs.length) : waiting cs i = .ok (some (leadOf cs i), i) := by
  have hc := List.getElem?_eq_getElem hi
  rw [waiting, bind_ok (item_ok hc), h.min?_eq hc]
  rfl

/-- A component before another one is counted, so its going leaves no counter below zero. -/
lemma Waits.release (h : Splits p cs) (w : Waits cs done pending q)
    (hj : j < cs.length) (hx : x ∈ pending j) (undone : j ∉ done) :
    ∃ q', q.release cs j = .ok q' ∧
      Waits cs done (Function.update pending j ((pending j).erase x)) q' := by
  have counter := w.counted.count j hj
  rw [← Finset.card_erase_add_one hx] at counter
  have size : j < q.inDegree.length := w.counted.size.symm ▸ hj
  have counted := w.counted.set (j := j) (s := (pending j).erase x) rfl
  have others : ∀ i, i ≠ j → Function.update pending j ((pending j).erase x) i = pending i :=
    fun i e => Function.update_of_ne e _ _
  unfold Queue.release
  rw [bind_ok (item_ok counter)]
  dsimp only
  rw [bind_ok (setItem_ok size)]
  have waited : (some (leadOf cs j), j) ∉ q.ready := by
    intro hmem
    obtain ⟨i, _, e, _, ended⟩ := (w.ready _).mp hmem
    cases congrArg Prod.snd e
    rw [ended] at hx
    cases hx
  by_cases last : ((pending j).erase x).card = 0
  · rw [if_pos last, bind_ok (h.waiting_ok hj)]
    refine ⟨_, rfl, counted, List.nodup_cons.mpr ⟨waited, w.nodup⟩, fun e => ?_⟩
    rw [List.mem_cons, w.ready]
    constructor
    · rintro (rfl | ⟨i, hi, rfl, free, ended⟩)
      · refine ⟨j, hj, rfl, undone, ?_⟩
        rw [Function.update_self]
        exact Finset.card_eq_zero.mp last
      · refine ⟨i, hi, rfl, free, ?_⟩
        rw [others i fun same => by rw [← same, ended] at hx; cases hx]
        exact ended
    · rintro ⟨i, hi, rfl, free, ended⟩
      by_cases same : i = j
      · exact .inl (by rw [same])
      · exact .inr ⟨i, hi, rfl, free, others i same ▸ ended⟩
  · rw [if_neg last]
    refine ⟨_, rfl, counted, w.nodup, fun e => ?_⟩
    rw [w.ready]
    apply exists_congr
    intro i
    by_cases same : i = j
    · subst same
      have more : pending i ≠ ∅ := Finset.ne_empty_of_mem hx
      have left : (pending i).erase x ≠ ∅ := fun e => last (Finset.card_eq_zero.mpr e)
      simp [more, left]
    · rw [others i same]

/-- When a component goes it is no longer pending before any other. -/
lemma Waits.releaseAll (h : Splits p cs) {after : List Nat}
    (w : Waits cs done pending q) (nodup : after.Nodup)
    (counts : ∀ j ∈ after, j < cs.length ∧ x ∈ pending j ∧ j ∉ done) :
    ∃ q', after.foldlM (Queue.release cs) q = .ok q' ∧
      Waits cs done (fun j => if j ∈ after then (pending j).erase x else pending j) q' := by
  induction after generalizing pending q with
  | nil => exact ⟨q, rfl, by simpa using w⟩
  | cons j rest ih =>
    obtain ⟨hj, nodup⟩ := List.nodup_cons.mp nodup
    obtain ⟨⟨less, hx, undone⟩, counts⟩ := List.forall_mem_cons.mp counts
    obtain ⟨q1, h1, w1⟩ := w.release h less hx undone
    have others : ∀ i ∈ rest, Function.update pending j ((pending j).erase x) i = pending i := by
      intro i hi
      refine Function.update_of_ne ?_ _ _
      rintro rfl
      exact hj hi
    obtain ⟨q', hq', w'⟩ := ih w1 nodup fun i hi => by
      rw [others i hi]
      exact counts i hi
    refine ⟨q', by rw [List.foldlM_cons, bind_ok h1]; exact hq', ?_⟩
    convert w' using 2 with i
    by_cases same : i = j
    · subst same
      simp [hj]
    · simp [same]

/-! ## Members of components -/

lemma insertIdx_findIdx {position : Nat} {entries : List (LockNum × Nat)} :
    (entries.map (·.2)).insertIdx ((entries.map (·.1)).findIdx (p.precedes n)) position =
      (p.insertLock (n, position) entries).map (·.2) := by
  induction entries with
  | nil => rfl
  | cons entry rest ih =>
    rw [LockPlan.insertLock, List.map_cons, List.map_cons, List.findIdx_cons]
    by_cases first : p.precedes n entry.1 = true
    · simp [first]
    · simpa [first] using ih

lemma insertMember_ok {position : Nat} {entries : List (LockNum × Nat)}
    (there : ∀ entry ∈ entries, p.locks[entry.2]? = some entry.1) :
    insertMember p n position (entries.map (·.2)) =
      .ok ((p.insertLock (n, position) entries).map (·.2)) := by
  have others : (entries.map (·.2)).mapM (item p.locks) = .ok (entries.map (·.1)) := by
    rw [List.mapM_map]
    exact mapM_ok fun entry hmem => item_ok (there entry hmem)
  have inside : (entries.map (·.1)).findIdx (p.precedes n) ≤ (entries.map (·.2)).length := by
    rw [List.length_map, ← List.length_map (·.1)]
    exact List.findIdx_le_length
  unfold insertMember
  rw [bind_ok others]
  dsimp only
  rw [if_pos inside, insertIdx_findIdx]
  rfl

/-- The members of a component are those of the cluster of its leader. -/
lemma Components.members_ok (h : Splits p cs)
    (hi : i < cs.length) :
    members p cs i = .ok ((p.cluster p.leaderOf (leadOf cs i)).map (·.2)) := by
  have own : ∀ entry ∈ p.locks.zipIdx, p.locks[entry.2]? = some entry.1 := fun entry hmem =>
    List.mk_mem_zipIdx_iff_getElem?.mp hmem
  unfold members LockPlan.cluster
  generalize p.locks.zipIdx = l at own
  suffices sorted : ∀ entries : List (LockNum × Nat),
      (∀ entry ∈ entries, p.locks[entry.2]? = some entry.1) →
      l.foldlM (fun sorted entry => do
        if (← componentOf cs entry.1) = i then insertMember p entry.1 entry.2 sorted
        else return sorted : List Nat → LockNum × Nat → Except Trap (List Nat))
          (entries.map (·.2)) =
        .ok (((l.filter fun entry => p.leaderOf entry.1 = leadOf cs i).foldl
          (fun sorted entry => p.insertLock entry sorted) entries).map (·.2)) from sorted [] nofun
  induction l with
  | nil => exact fun entries _ => rfl
  | cons entry rest ih =>
    intro entries there
    obtain ⟨first, own⟩ := List.forall_mem_cons.mp own
    obtain ⟨j, hj⟩ := h.exists_sits (List.mem_of_getElem? first)
    rw [List.foldlM_cons, List.filter_cons, bind_ok (componentOf_ok h.disjoint hj),
      h.leaderOf_eq hj]
    by_cases same : j = i
    · subst same
      rw [if_pos rfl, if_pos (decide_eq_true rfl), List.foldl_cons, bind_ok (insertMember_ok there)]
      refine ih own _ fun e he => ?_
      rcases List.mem_cons.mp (LockPlan.insertLock_perm.mem_iff.mp he) with rfl | he
      · exact first
      · exact there e he
    · have other : ¬ leadOf cs j = leadOf cs i := fun e => same (h.leadOf_inj hj.lt hi e)
      rw [if_neg same, decide_eq_false other]
      exact ih own entries there

/-! ## Rounds -/

namespace Components

variable (h : Splits p cs)

include h

/-- The leader of a component leads to that of a component linked to it. -/
lemma leadsTo_of_linked (hl : Linked cs (arcsAmong p) i j) :
    p.leadsTo (leadOf cs i) (leadOf cs j) = true := by
  obtain ⟨_, ⟨m, n⟩, arc, hm, hn⟩ := hl
  have view : p.View m n := mem_arcsAmong.mp arc
  have own := h.sits_leadOf hm.lt
  have other := h.sits_leadOf hn.lt
  rw [LockPlan.leadsTo_iff (h.mem_locks own)]
  refine ((h.sits_iff hn (h.mem_locks other)).mp other).led ?_
  exact ((h.sits_iff hm (h.mem_locks own)).mp own).leads (.single view)

/-- Where arcs lead from one lock to another, links lead between their components. -/
lemma links_of_leads (hm : Sits cs m i) (hn : Sits cs n j) (hl : TransGen p.View m n) :
    ReflTransGen (Linked cs (arcsAmong p)) i j := by
  have next : ∀ {m n i j}, Sits cs m i → Sits cs n j → p.View m n →
      ReflTransGen (Linked cs (arcsAmong p)) i j := by
    intro m n i j hm hn view
    by_cases same : i = j
    · rw [same]
    · exact .single ⟨same, (m, n), mem_arcsAmong.mpr view, hm, hn⟩
  induction hl generalizing j with
  | single view => exact next hm hn view
  | tail _ view ih =>
    obtain ⟨k, hk⟩ := h.exists_sits view.1
    exact (ih hk).trans (next hk hn view)

end Components

/-- What lies before a component that is done is done. -/
def Closed (cs : List (List LockNum)) (arcs : List (LockNum × LockNum))
    (done : Finset Nat) : Prop :=
  ∀ {i j}, Linked cs arcs i j → j ∈ done → i ∈ done

lemma Closed.of_links (closed : Closed cs arcs done) (hl : ReflTransGen (Linked cs arcs) i j)
    (hj : j ∈ done) : i ∈ done := by
  induction hl using ReflTransGen.head_induction_on with
  | refl => exact hj
  | head link _ ih => exact closed link ih

/-- The leaders that are left are those of components that are not done, in ascending order. -/
structure Left (cs : List (List LockNum)) (done : Finset Nat) (l : List LockNum) : Prop where
  ascending : l.Pairwise (· < ·)
  mem : ∀ m, m ∈ l ↔ ∃ i < cs.length, i ∉ done ∧ leadOf cs i = m

namespace Left

variable {l : List LockNum}

lemma nodup (left : Left cs done l) : l.Nodup := left.ascending.imp Int.ne_of_lt

lemma subset (h : Splits p cs) (left : Left cs done l) :
    l ⊆ p.leaders p.leaderOf := by
  intro m hm
  obtain ⟨i, hi, _, rfl⟩ := (left.mem m).mp hm
  exact h.leaders_perm.mem_iff.mpr (List.mem_map_of_mem (List.mem_range.mpr hi))

/-- One component more is done. -/
lemma erase (h : Splits p cs) (left : Left cs done l)
    (hi : i < cs.length) : Left cs (insert i done) (l.erase (leadOf cs i)) := by
  refine ⟨left.ascending.sublist List.erase_sublist, fun m => ?_⟩
  rw [left.nodup.mem_erase_iff, left.mem]
  constructor
  · rintro ⟨hne, j, hj, undone, rfl⟩
    refine ⟨j, hj, fun hmem => ?_, rfl⟩
    rcases Finset.mem_insert.mp hmem with rfl | hmem
    · exact hne rfl
    · exact undone hmem
  · rintro ⟨j, hj, undone, rfl⟩
    refine ⟨fun e => undone ?_, j, hj, fun hmem => undone (Finset.mem_insert_of_mem hmem), rfl⟩
    rw [h.leadOf_inj hj hi e]
    exact Finset.mem_insert_self i done

/-- A leader is ready for the schedule exactly if all that lies before its component is done. -/
lemma ready_iff (h : Splits p cs) (left : Left cs done l)
    (closed : Closed cs (arcsAmong p) done) (hj : j < cs.length) :
    LockPlan.ready p.leadsTo l (leadOf cs j) = true ↔ before cs (arcsAmong p) j \ done = ∅ := by
  rw [LockPlan.ready_iff, Finset.sdiff_eq_empty_iff_subset]
  constructor
  · intro ready i hi
    by_contra hn
    have link := mem_before.mp hi
    obtain ⟨hne, _, _, hs, _⟩ := id link
    exact hne (h.leadOf_inj hs.lt hj (ready _ ((left.mem _).mpr ⟨i, hs.lt, hn, rfl⟩)
      (h.leadsTo_of_linked link)))
  · intro all b hb leads
    obtain ⟨i, hi, hn, rfl⟩ := (left.mem b).mp hb
    have own := h.sits_leadOf hi
    rw [LockPlan.leadsTo_iff (h.mem_locks own)] at leads
    rcases (h.links_of_leads own (h.sits_leadOf hj) leads).cases_tail with rfl | ⟨k, links, link⟩
    · rfl
    · exact absurd (closed.of_links links (all (mem_before.mpr link))) hn

end Left

/-- Of the ready members of an ascending list the first is the smallest. -/
lemma lt_of_find? {ready : LockNum → Bool} {l : List LockNum} (ascending : l.Pairwise (· < ·))
    (hf : l.find? ready = some m) (hn : n ∈ l) (also : ready n = true) (hne : n ≠ m) : m < n := by
  obtain ⟨_, front, rest, rfl, skipped⟩ := List.find?_eq_some_iff_append.mp hf
  rcases List.mem_append.mp hn with hn | hn
  · have refused := skipped n hn
    rw [also] at refused
    cases refused
  · rcases List.mem_cons.mp hn with e | hn
    · exact absurd e hne
    · exact (List.pairwise_cons.mp (List.pairwise_append.mp ascending).2.1).1 n hn

namespace Waits

lemma ready_eq_nil (w : Waits cs done pending q) (left : Left cs done []) : q.ready = [] := by
  rw [List.eq_nil_iff_forall_not_mem]
  intro e he
  obtain ⟨j, hj, _, undone, _⟩ := (w.ready e).mp he
  exact List.not_mem_nil ((left.mem _).mpr ⟨j, hj, undone, rfl⟩)

/-- The component of the first ready leader is taken out of the queue. -/
lemma next?_eq (h : Splits p cs) {l : List LockNum}
    (left : Left cs done l) (closed : Closed cs (arcsAmong p) done)
    (w : Waits cs done (fun j => before cs (arcsAmong p) j \ done) q) (hi : i < cs.length)
    (undone : i ∉ done) (hf : l.find? (LockPlan.ready p.leadsTo l) = some (leadOf cs i)) :
    next? q.ready = some (some (leadOf cs i), i) := by
  have free := (left.ready_iff h closed hi).mp (List.find?_some hf)
  refine Checked.next?_eq ((w.ready _).mpr ⟨i, hi, rfl, undone, free⟩) fun f hf' hne => ?_
  obtain ⟨j, hj, rfl, undone', free'⟩ := (w.ready f).mp hf'
  have less : leadOf cs i < leadOf cs j := by
    refine lt_of_find? left.ascending hf ((left.mem _).mpr ⟨j, hj, undone', rfl⟩)
      ((left.ready_iff h closed hj).mpr free') fun e => hne ?_
    rw [h.leadOf_inj hj hi e]
  simp [Waiting.before, less]

lemma take (w : Waits cs done pending q) :
    Waits cs (insert i done) pending { q with ready := q.ready.erase (some (leadOf cs i), i) } := by
  refine ⟨w.counted, w.nodup.erase _, fun e => ?_⟩
  rw [w.nodup.mem_erase_iff, w.ready]
  constructor
  · rintro ⟨hne, j, hj, rfl, undone, ended⟩
    refine ⟨j, hj, rfl, fun hmem => ?_, ended⟩
    rcases Finset.mem_insert.mp hmem with rfl | hmem
    · exact hne rfl
    · exact undone hmem
  · rintro ⟨j, hj, rfl, undone, ended⟩
    refine ⟨fun e => undone ?_, j, hj, rfl, fun hmem =>
      undone (Finset.mem_insert_of_mem hmem), ended⟩
    obtain rfl : j = i := congrArg Prod.snd e
    exact Finset.mem_insert_self j done

/-- The counters of the components after one that is done go down. -/
lemma round (h : Splits p cs) {graph : Condensation}
    (condenses : graph.Condenses cs (arcsAmong p)) (closed : Closed cs (arcsAmong p) done)
    (w : Waits cs done (fun j => before cs (arcsAmong p) j \ done) q) {after : List Nat}
    (hafter : graph.successors[i]? = some after) (undone : i ∉ done) :
    ∃ q', after.foldlM (Queue.release cs)
        { q with ready := q.ready.erase (some (leadOf cs i), i) } = .ok q' ∧
      Waits cs (insert i done) (fun j => before cs (arcsAmong p) j \ insert i done) q' := by
  have linked := condenses.successors i after hafter
  obtain ⟨q', hq', w'⟩ := w.take.releaseAll h (x := i)
    (condenses.nodup after (List.mem_of_getElem? hafter)) fun j hj => by
      have link := (linked j).mp hj
      obtain ⟨hne, _, _, _, ht⟩ := id link
      refine ⟨ht.lt, Finset.mem_sdiff.mpr ⟨mem_before.mpr link, undone⟩, fun hmem => ?_⟩
      rcases Finset.mem_insert.mp hmem with e | hmem
      · exact hne e.symm
      · exact undone (closed link hmem)
  refine ⟨q', hq', ?_⟩
  convert w' using 2 with j
  rw [Finset.sdiff_insert]
  split
  · rfl
  · rename_i other
    refine Finset.erase_eq_of_notMem fun hmem => other ((linked j).mpr ?_)
    exact mem_before.mp (Finset.mem_sdiff.mp hmem).1

end Waits

/-- The queue takes the components in the order of the schedule. -/
lemma drain_ok (h : Splits p cs) {graph : Condensation}
    (condenses : graph.Condenses cs (arcsAmong p)) {k : Nat} {l : List LockNum}
    {positions : List Nat}
    (left : Left cs done l) (enough : l.length ≤ k) (closed : Closed cs (arcsAmong p) done)
    (w : Waits cs done (fun j => before cs (arcsAmong p) j \ done) q) :
    drain p cs graph.successors k q positions = .ok (positions ++
      (LockPlan.schedule p.leadsTo k l).flatMap fun m => (p.cluster p.leaderOf m).map (·.2)) := by
  induction k generalizing l q done positions with
  | zero =>
    cases List.eq_nil_of_length_eq_zero (Nat.le_zero.mp enough)
    rw [drain, w.ready_eq_nil left]
    simp [LockPlan.schedule]
  | succ k ih =>
    by_cases drained : l = []
    · subst drained
      rw [drain, w.ready_eq_nil left, LockPlan.schedule_nil]
      simp [next?]
    · have oneWay : LockPlan.OneWay p.leadsTo l := LockPlan.oneWay_leaders.mono (left.subset h)
      obtain ⟨a, hf, ha, hready⟩ := LockPlan.find?_ready oneWay drained
      obtain ⟨i, hi, undone, rfl⟩ := (left.mem a).mp ha
      have free := Finset.sdiff_eq_empty_iff_subset.mp ((left.ready_iff h closed hi).mp hready)
      have hafter :=
        List.getElem?_eq_getElem (condenses.size.symm ▸ hi : i < graph.successors.length)
      obtain ⟨q', hq', w'⟩ := w.round h condenses closed hafter undone
      have closed' : Closed cs (arcsAmong p) (insert i done) := by
        intro s t link ht
        rcases Finset.mem_insert.mp ht with rfl | ht
        · exact Finset.mem_insert_of_mem (free (mem_before.mpr link))
        · exact Finset.mem_insert_of_mem (closed link ht)
      have fewer : (l.erase (leadOf cs i)).length ≤ k := by
        rw [List.length_erase_of_mem ha]
        omega
      rw [drain, w.next?_eq h left closed hi undone hf]
      dsimp only
      rw [bind_ok (h.members_ok hi), bind_ok (item_ok hafter), bind_ok hq',
        ih (left.erase h hi) fewer closed' w', LockPlan.schedule_succ, hf, List.flatMap_cons,
        List.append_assoc]

lemma left_leaders (h : Splits p cs) :
    Left cs ∅ (p.leaders p.leaderOf) := by
  refine ⟨(SortedSet.ofList (p.locks.map p.leaderOf)).sorted.imp of_decide_eq_true, fun m => ?_⟩
  rw [h.leaders_perm.mem_iff, List.mem_map]
  simp

lemma waits_start {graph : Condensation} (condenses : graph.Condenses cs arcs) :
    Waits cs ∅ (fun j => before cs arcs j \ ∅)
      { ready := ((List.range cs.length).filter fun i => (before cs arcs i).card = 0).map
          fun i => (some (leadOf cs i), i)
        inDegree := graph.inDegree } := by
  simp only [Finset.sdiff_empty]
  refine ⟨condenses.counted, ?_, fun e => ?_⟩
  · exact (List.nodup_range.filter _).map fun i j e => congrArg Prod.snd e
  · simp only [List.mem_map, List.mem_filter, List.mem_range, decide_eq_true_eq,
      Finset.card_eq_zero, Finset.notMem_empty, not_false_eq_true, true_and]
    constructor
    · rintro ⟨i, ⟨hi, ended⟩, rfl⟩
      exact ⟨i, hi, rfl, ended⟩
    · rintro ⟨i, hi, rfl, ended⟩
      exact ⟨i, ⟨hi, ended⟩, rfl⟩

/-- A checked plan goes through, in whatever order the components are found. -/
theorem plan_ok {scc : Clustering} (exact : scc.Exact) (p : LockPlan) :
    plan scc p = .ok p.positions := by
  have ends : ∀ arc ∈ arcsAmong p, arc.1 ∈ p.locks ∧ arc.2 ∈ p.locks := fun arc hmem =>
    ⟨(mem_arcsAmong.mp hmem).1, (mem_arcsAmong.mp hmem).2.1⟩
  have h : Splits p (scc (Walk.fresh [] p.locks) (arcsAmong p)) :=
    exact _ _ Walk.nodup_fresh fun arc hmem =>
      ⟨mem_distinct.mpr (ends arc hmem).1, mem_distinct.mpr (ends arc hmem).2⟩
  unfold plan
  dsimp only
  generalize scc (Walk.fresh [] p.locks) (arcsAmong p) = cs at h
  obtain ⟨graph, hgraph, condenses⟩ := condenses_nil.linkAll h ends
  rw [List.nil_append] at condenses
  have free : ((List.range cs.length).filterM fun i => do return (← item graph.inDegree i) = 0 :
      Except Trap (List Nat)) = .ok _ := filterM_ok fun i hi =>
    bind_ok (item_ok (condenses.counted.count i (List.mem_range.mp hi)))
  have ready : ((List.range cs.length).filter fun i => (before cs (arcsAmong p) i).card = 0).mapM
      (waiting cs) = .ok _ := mapM_ok fun i hi =>
    h.waiting_ok (List.mem_range.mp (List.mem_of_mem_filter hi))
  have size : (p.leaders p.leaderOf).length = cs.length := by
    rw [h.leaders_perm.length_eq, List.length_map, List.length_range]
  have closed : Closed cs (arcsAmong p) ∅ := fun _ hmem => absurd hmem (Finset.notMem_empty _)
  rw [bind_ok hgraph, bind_ok free, bind_ok ready,
    drain_ok h condenses (left_leaders h) (Nat.le_of_eq size) closed (waits_start condenses),
    LockPlan.positions_eq, List.nil_append, ← size]
  rfl

end Interlock.Checked
