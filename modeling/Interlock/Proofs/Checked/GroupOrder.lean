import Interlock.Proofs.Checked.Access
import Interlock.Proofs.GroupOrder.Merge
import Interlock.Proofs.GroupOrder.Pass

/-!
# A checked search between groups

A search between groups with all its look-ups: of the sections of each pair and of their groups, and
of the groups and the members of a merge.

In a valid arena every section that takes a lock is in a group, so a checked pass judges like
`GroupSearch.pass` (`groupPass_ok`). The members of a group exist, so a checked merge does what a
merge does (`merge_ok`). The two groups of a conflict that is repaired are not the same, so the
arena stays valid. A checked search thus ends like the search (`detectGroups_ok`).
-/

namespace Interlock.Checked

open GroupSearch (Growing Progress)

/-! ## One pass -/

/-- The group of a section that takes a lock. -/
def groupOf (a : Arena) (t : SectionId) : Except Trap GroupId := do
  let s ← look (a.section? t)
  match s.group with
  | some g => return g
  | none => throw (.ungrouped s.name)

/-- The sections that take a lock. -/
def lockedIds (a : Arena) : List SectionId :=
  a.sections.zipIdx.filterMap fun (s, t) => if s.isLocked then some t else none

/-- Takes on the arc of one pair of sections, unless its end already reaches its start. -/
def takeArc (a : Arena) (loops : Bool) (outer : SectionId) (g : Growing) (inner : SectionId) :
    Scan (Digraph GroupId × GroupConflict) Growing := do
  let s ← check (look (a.section? outer))
  let u ← check (look (a.section? inner))
  if s.setNumber != u.setNumber || loops then
    if ← check (look (a.enters outer inner)) then
      let m ← check (groupOf a outer)
      let n ← check (groupOf a inner)
      if g.reach.reaches n m then
        throw (g.order, { outer, inner, outerGroup := m, innerGroup := n })
      else return { order := g.order.addArc m n, reach := g.reach.insert m n }
    else return g
  else return g

/-- One pass over all pairs, up to the first conflict. -/
def groupPass (a : Arena) (config : Config) :
    Scan (Digraph GroupId × GroupConflict) (Digraph GroupId) := do
  let groups ← check ((lockedIds a).mapM (groupOf a))
  let grown ← (lockedIds a).foldlM
    (fun g outer => (lockedIds a).foldlM (takeArc a config.effectiveAllowSelfEdges outer) g)
    { order := groups.foldl Digraph.addNode .empty, reach := .empty config.reachability }
  return grown.order

variable {a b : Arena} {config : Config} {oracle : Oracle} {loops : Bool} {x y : LockedSection}
  {g : Growing} {t : SectionId} {into source : GroupId}

lemma lockedIds_eq (valid : a.Valid) : lockedIds a = a.lockedSections.map (·.id) := by
  unfold lockedIds Arena.lockedSections
  rw [List.map_filterMap]
  refine List.filterMap_congr ?_
  rintro ⟨s, t⟩ hmem
  have there := valid.sections (List.mk_mem_zipIdx_iff_getElem?.mp hmem)
  dsimp only
  cases hg : s.group with
  | some g => split <;> rfl
  | none =>
    have unlocked : ¬ s.isLocked = true := by
      rw [Section.isLocked, decide_eq_true_eq]
      exact Int.not_lt.mpr (there.ungrouped hg)
    rw [if_neg unlocked]
    rfl

lemma groupOf_ok (hx : x ∈ a.lockedSections) : groupOf a x.id = .ok x.group := by
  obtain ⟨hs, hg, _⟩ := Arena.mem_lockedSections.mp hx
  rw [groupOf, bind_ok (look_ok (Arena.section?_eq_ok.mpr hs)), hg]
  rfl

/-- What a pass makes of two sections that take a lock. -/
def arcStep (loops : Bool) (x : LockedSection) (g : Growing) (y : LockedSection) :
    Except (Digraph GroupId × GroupConflict) Growing :=
  if (x.record.setNumber != y.record.setNumber || loops) && x.record.enters y.record then
    GroupSearch.takePair g (x, y)
  else .ok g

lemma takeArc_ok (hx : x ∈ a.lockedSections) (hy : y ∈ a.lockedSections) :
    takeArc a loops x.id g y.id = judge (arcStep loops x g y) := by
  have hs := Arena.section?_eq_ok.mpr (Arena.mem_lockedSections.mp hx).1
  have hu := Arena.section?_eq_ok.mpr (Arena.mem_lockedSections.mp hy).1
  have enters : a.enters x.id y.id = .ok (x.record.enters y.record) := by
    rw [Arena.enters, bind_ok hu, bind_ok hs]
    rfl
  unfold takeArc arcStep
  rw [bind_check (look_ok hs), bind_check (look_ok hu)]
  cases (x.record.setNumber != y.record.setNumber || loops) with
  | false => rfl
  | true =>
    rw [if_pos rfl, bind_check (look_ok enters)]
    cases x.record.enters y.record with
    | false => rfl
    | true =>
      rw [if_pos rfl, bind_check (groupOf_ok hx), bind_check (groupOf_ok hy)]
      show _ = judge (GroupSearch.takePair g (x, y))
      rw [GroupSearch.takePair_eq]
      split <;> rfl

lemma foldlM_orderingPairs : (a.orderingPairs loops).foldlM GroupSearch.takePair g =
    a.lockedSections.foldlM (fun g x => a.lockedSections.foldlM (arcStep loops x) g) g := by
  unfold Arena.orderingPairs
  rw [LockOrder.foldlM_flatMap]
  congr 1
  funext g x
  rw [List.foldlM_map, List.foldlM_filter]
  rfl

/-- In a valid arena a checked pass judges like a pass. -/
theorem groupPass_ok (valid : a.Valid) :
    groupPass a config = judge (GroupSearch.pass a config) := by
  have groups : (lockedIds a).mapM (groupOf a) = .ok (a.lockedSections.map (·.group)) := by
    rw [lockedIds_eq valid, List.mapM_map]
    exact mapM_ok fun x hx => groupOf_ok hx
  have arcs : ∀ g, (lockedIds a).foldlM (fun g outer =>
      (lockedIds a).foldlM (takeArc a config.effectiveAllowSelfEdges outer) g) g =
      judge ((a.orderingPairs config.effectiveAllowSelfEdges).foldlM GroupSearch.takePair g) := by
    intro g
    rw [lockedIds_eq valid, foldlM_orderingPairs]
    simp only [List.foldlM_map]
    refine foldlM_judge (I := fun _ => True) trivial ?_ fun _ _ _ _ _ _ => trivial
    intro g _ x hx
    refine foldlM_judge (I := fun _ => True) trivial ?_ fun _ _ _ _ _ _ => trivial
    exact fun g _ y hy => takeArc_ok hx hy
  unfold groupPass GroupSearch.pass
  rw [bind_check groups, arcs]
  exact bind_judge

/-! ## One merge -/

/-- Moves every member of the second group into the first, and leaves the second empty. -/
def merge (into source : GroupId) : Edit Unit := do
  let target ← ask (·.group? into)
  let emptied ← ask (·.group? source)
  if into = source then return ()
  editGroup source ({ · with members := .empty })
  emptied.members.toList.forM fun member =>
    editSection member ({ · with group := some into, setNumber := target.number })
  editGroup into fun g => { g with members := g.members.union emptied.members }

lemma editGroup_ok {f : Group → Group} {k : GroupId} (h : k < a.groups.length) :
    editGroup k f a = .ok () (a.modifyGroup k f) :=
  if_pos h

lemma editSection_ok {f : Section → Section} (h : t < a.sections.length) :
    editSection t f a = .ok () (a.modifySection t f) :=
  if_pos h

lemma foldl_modifyGroup {f : Section → Section} {h : Group → Group} {members : List SectionId}
    {k : GroupId} :
    members.foldl (fun a member => a.modifySection member f) (a.modifyGroup k h) =
      (members.foldl (fun a member => a.modifySection member f) a).modifyGroup k h := by
  induction members generalizing a with
  | nil => rfl
  | cons member rest ih => exact ih (a := a.modifySection member f)

/-- Where the members of the second group exist, a checked merge does what a merge does. -/
theorem merge_ok {target emptied : Group} (ht : a.groups[into]? = some target)
    (he : a.groups[source]? = some emptied)
    (exist : ∀ i ∈ emptied.members, ∃ s, a.sections[i]? = some s)
    (h : a.mergeGroups into source = .ok b) : merge into source a = .ok () b := by
  unfold merge
  unfold Arena.mergeGroups at h
  rw [bind_ok (Arena.group?_eq_ok.mpr ht), bind_ok (Arena.group?_eq_ok.mpr he)] at h
  rw [bind_edit (ask_ok (Arena.group?_eq_ok.mpr ht)),
    bind_edit (ask_ok (Arena.group?_eq_ok.mpr he))]
  split
  · rename_i same
    rw [if_pos same] at h
    cases h
    rfl
  · rename_i other
    rw [if_neg other] at h
    cases h
    let rename : Section → Section := ({ · with group := some into, setNumber := target.number })
    have moved : (emptied.members.toList.forM fun member => editSection member rename)
        (a.modifyGroup source ({ · with members := .empty })) =
          .ok () (emptied.members.toList.foldl (fun a member => a.modifySection member rename)
            (a.modifyGroup source ({ · with members := .empty }))) := by
      refine forM_edit (I := fun b => b.sections.length = a.sections.length) rfl ?_
      intro b size member hmem
      obtain ⟨s, hs⟩ := exist member hmem
      refine ⟨editSection_ok ?_, (List.length_modify ..).trans size⟩
      rw [size]
      exact (List.getElem?_eq_some_iff.mp hs).1
    rw [bind_edit (editGroup_ok (List.getElem?_eq_some_iff.mp he).1), bind_edit moved,
      foldl_modifyGroup, editGroup_ok]
    -- the group that takes the members is still there
    rw [Arena.modifyGroup, List.length_modify, Arena.groups_modifyAll]
    exact (List.getElem?_eq_some_iff.mp ht).1

/-! ## The search -/

/-- What a search leaves, apart from the arena. -/
structure GroupFinding where
  order : Digraph GroupId
  status : Status GroupConflict
  iterations : Nat
  merges : List GroupConflict

/-- What a search leaves. -/
def GroupFinding.of (s : GroupSearch) : GroupFinding where
  order := s.order
  status := s.status
  iterations := s.iterations
  merges := s.merges

/-- Passes until one meets no conflict, or until the given number of passes is used up. -/
def groupPasses (config : Config) : Nat → Nat → Digraph GroupId → List GroupConflict →
    Edit GroupFinding
  | 0, _, last, merges =>
    return { order := last
             status := .didNotConverge config.maxIterations merges.getLast?
             iterations := config.maxIterations
             merges }
  | left + 1, number, _, merges => do
    match ← read fun a => groupPass a config with
    | .ok order =>
      return { order
               status := if merges.isEmpty then .acyclic else .repaired merges.length
               iterations := number
               merges }
    | .error (order, c) =>
      if config.repair then
        merge c.outerGroup c.innerGroup
        groupPasses config left (number + 1) order (merges ++ [c])
      else
        return { order := order.addArc c.outerGroup c.innerGroup
                 status := .deadlockReported c
                 iterations := number
                 merges }

/-- Searches an arena for deadlocks between groups. -/
def detectGroups (oracle : Oracle) (config : Config) : Edit GroupFinding := do
  ask (·.validate)
  ensureAll oracle
  groupPasses config config.maxIterations 1 .empty []

variable {p : Progress} {o : Digraph GroupId} {c : GroupConflict} {k : Nat}

/-- The sections that a conflict names exist. -/
def Present (a : Arena) (c : GroupConflict) : Prop :=
  (a.sections[c.outer]?).isSome ∧ (a.sections[c.inner]?).isSome

/-- What a search leaves names sections of a valid arena only. -/
structure GroupTraceable (s : GroupSearch) : Prop where
  valid : s.arena.Valid
  merges : ∀ c ∈ s.merges, Present s.arena c
  conflict : ∀ c, conflict? s.status = some c → Present s.arena c

/-- A pass meets a conflict between sections that take locks. -/
lemma conflict_of_pass (h : GroupSearch.pass a config = .error (o, c)) :
    ∃ x y, (x, y) ∈ a.orderingPairs config.effectiveAllowSelfEdges ∧
      c = GroupSearch.conflictOf (x, y) := by
  obtain ⟨before, ⟨x, y⟩, after, hl, _, hc, _⟩ := GroupSearch.pass_error h
  refine ⟨x, y, ?_, hc⟩
  rw [hl]
  simp

lemma present_of_pass (h : GroupSearch.pass a config = .error (o, c)) : Present a c := by
  obtain ⟨x, y, hmem, rfl⟩ := conflict_of_pass h
  obtain ⟨hx, hy, _⟩ := Arena.mem_orderingPairs.mp hmem
  exact ⟨Option.isSome_of_eq_some (Arena.mem_lockedSections.mp hx).1,
    Option.isSome_of_eq_some (Arena.mem_lockedSections.mp hy).1⟩

/-- A conflict that is repaired is one of two different groups, which exist. -/
lemma merge_of_pass (valid : a.Valid) (repair : config.repair = true)
    (h : GroupSearch.pass a config = .error (o, c)) :
    ∃ b, a.mergeGroups c.outerGroup c.innerGroup = .ok b ∧
      merge c.outerGroup c.innerGroup a = .ok () b ∧ b.Valid ∧
      ∀ t : SectionId, (b.sections[t]?).isSome = (a.sections[t]?).isSome := by
  obtain ⟨x, y, hmem, rfl⟩ := conflict_of_pass h
  obtain ⟨hx, hy, apart, _⟩ := Arena.mem_orderingPairs.mp hmem
  obtain ⟨hs, hg, _⟩ := Arena.mem_lockedSections.mp hx
  obtain ⟨hs', hg', _⟩ := Arena.mem_lockedSections.mp hy
  obtain ⟨target, ht, _, number⟩ := (valid.sections hs).grouped _ hg
  obtain ⟨emptied, he, _, number'⟩ := (valid.sections hs').grouped _ hg'
  have noLoops : config.effectiveAllowSelfEdges = false := by
    rw [Config.effectiveAllowSelfEdges, repair]
    exact Bool.and_false _
  have other : x.group ≠ y.group := by
    intro same
    rw [same, he] at ht
    cases ht
    rw [noLoops] at apart
    exact apart.elim (fun hne => hne (number.trans number'.symm)) nofun
  obtain ⟨b, hb, merged⟩ := Arena.mergeGroups_merged other ht he
  have exist : ∀ i ∈ emptied.members, ∃ s, a.sections[i]? = some s := by
    intro i hi
    obtain ⟨s, hs, _⟩ := (valid.groups he).members i hi
    exact ⟨s, hs⟩
  refine ⟨b, hb, merge_ok ht he exist hb, merged.valid valid other, fun t => ?_⟩
  obtain ⟨_, _, _, _, sections, _⟩ := merged.records
  rw [sections, Option.isSome_map]

lemma groupPasses_ok (valid : p.arena.Valid) (merges : ∀ c ∈ p.merges, Present p.arena c) :
    ∃ s, GroupSearch.run config k p = .ok s ∧ GroupTraceable s ∧
      groupPasses config k (p.merges.length + 1) p.last p.merges p.arena = .ok (.of s) s.arena := by
  induction k generalizing p with
  | zero =>
    refine ⟨_, rfl, ⟨valid, merges, fun c hc => ?_⟩, rfl⟩
    exact merges c (List.mem_of_getLast? hc)
  | succ k ih =>
    have judged : read (fun a => groupPass a config) p.arena =
        .ok (GroupSearch.pass p.arena config) p.arena := read_ok (groupPass_ok valid)
    unfold groupPasses GroupSearch.run
    rw [bind_edit judged]
    cases hp : GroupSearch.pass p.arena config with
    | ok order =>
      refine ⟨_, rfl, ⟨valid, merges, fun c hc => ?_⟩, ?_⟩
      · dsimp only at hc
        split at hc <;> cases hc
      · cases p.merges <;> rfl
    | error e =>
      obtain ⟨o, c⟩ := e
      have present := present_of_pass hp
      dsimp only
      cases repair : config.repair with
      | false =>
        refine ⟨_, rfl, ⟨valid, merges, fun d hd => ?_⟩, rfl⟩
        cases hd
        exact present
      | true =>
        obtain ⟨b, hb, merged, valid', there⟩ := merge_of_pass valid repair hp
        have next : ∀ log, ∃ q, GroupSearch.repair { p with log } o c = .ok q ∧ q.arena = b ∧
            q.last = o ∧ q.merges = p.merges ++ [c] :=
          fun log => ⟨_, bind_ok hb, rfl, rfl, rfl⟩
        obtain ⟨q, hq, arena, last, all⟩ := next _
        have present' : ∀ d ∈ q.merges, Present q.arena d := by
          intro d hd
          rw [arena, Present, there, there]
          rw [all] at hd
          rcases List.mem_append.mp hd with hd | hd
          · exact merges d hd
          · cases List.mem_singleton.mp hd
            exact present
        obtain ⟨s, run, traceable, rest⟩ := ih (p := q) (arena ▸ valid') present'
        refine ⟨s, (bind_ok hq).trans run, traceable, ?_⟩
        rw [arena, last, all, List.length_append] at rest
        exact (bind_edit merged).trans rest

/-- In a valid arena a checked search ends like the search. -/
theorem detectGroups_ok (oracle : Oracle) (config : Config) (valid : a.validate = .ok ()) :
    ∃ found, a.searchGroups oracle config = .ok found ∧ GroupTraceable found ∧
      detectGroups oracle config a = .ok (.of found) found.arena := by
  have known : ∃ s, GroupSearch.run config config.maxIterations
        { arena := a.ensureAllTargets oracle } = .ok s ∧ GroupTraceable s ∧
      groupPasses config config.maxIterations 1 .empty [] (a.ensureAllTargets oracle) =
        .ok (.of s) s.arena :=
    groupPasses_ok (Arena.validate_eq_ok.mp valid).ensureAllTargets nofun
  obtain ⟨found, run, traceable, passes⟩ := known
  refine ⟨found, (bind_ok valid).trans run, traceable, ?_⟩
  unfold detectGroups
  rw [bind_edit (ask_ok valid), bind_edit ensureAll_ok]
  exact passes

end Interlock.Checked
