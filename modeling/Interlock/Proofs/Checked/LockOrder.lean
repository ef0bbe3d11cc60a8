import Interlock.Proofs.Checked.Access

/-!
# A checked search on locks

A search on locks with all its look-ups: of the sections of each pair, of the keys of their
locksets, of the sections behind each arc that leads back, and of those that a repair gives the
avoidance lock to.

A checked pass judges like `LockOrder.pass` (`lockPass_ok`), a checked repair does what a repair
does (`avoid_ok`), and so a checked search ends like the search (`detectLocks_ok`). The induction is
on the passes that are left. It is carried by `Traceable`: the arena is valid, and all sections that
the orders and the repairs name are grouped in it.
-/

namespace Interlock.Checked

open LockSearch (Progress)

/-! ## One pass -/

/-- The locks directly after a lock, as far as some section behind the arc shares no static lock
with the given section. -/
def locksAfter (a : Arena) (o : LockOrder) (outer : SectionId) (lock : LockNum) :
    Except Trap (List LockNum) :=
  (o.successors lock).filterM fun after =>
    (o.labels lock after).anyM fun label => do return !(← look (a.sharesStatic outer label))

/-- Takes on the arcs from the locks of the outer section to one lock of the inner section. -/
def takeLock (a : Arena) (outer inner : SectionId) (held : List LockNum) (o : LockOrder)
    (requested : LockNum) : Scan (LockOrder × LockConflict) LockOrder := do
  let after ← check (locksAfter a o outer requested)
  judge (held.foldlM (LockOrder.takeArc outer inner requested after) o)

/-- Takes on the arcs of one pair of sections, if the outer section may enter the inner one. -/
def takeInner (a : Arena) (outer : SectionId) (held : List LockNum) (o : LockOrder)
    (inner : SectionId) : Scan (LockOrder × LockConflict) LockOrder := do
  if ← check (look (a.enters outer inner)) then
    -- the names of the two sections are logged
    let _ ← check (look (a.section? outer))
    let _ ← check (look (a.section? inner))
    let requests ← check (look (a.lockNums inner))
    requests.foldlM (takeLock a outer inner held) o
  else return o

/-- Takes on the arcs of the pairs of one outer section. -/
def takeOuter (a : Arena) (o : LockOrder) (outer : SectionId) :
    Scan (LockOrder × LockConflict) LockOrder := do
  let held ← check (look (a.lockNums outer))
  a.groupedSections.foldlM (takeInner a outer held) o

/-- One pass over all pairs, up to the first conflict. -/
def lockPass (a : Arena) (permanent : LockOrder) : Scan (LockOrder × LockConflict) LockOrder := do
  let locks ← check (a.groupedSections.mapM fun t => look (a.lockNums t))
  a.groupedSections.foldlM (takeOuter a) (locks.flatten.foldl LockOrder.addNode permanent)

variable {a : Arena} {o o' permanent : LockOrder} {outer inner t : SectionId} {lock : LockNum}

lemma lockNums_of_grouped (valid : a.Valid) (h : t ∈ a.groupedSections) :
    a.lockNums t = .ok (a.held t) := by
  obtain ⟨s, hs, _⟩ := Arena.mem_groupedSections.mp h
  exact valid.lockNums hs

lemma locksAfter_ok (valid : a.Valid) (labels : o.LabelsGrouped a)
    (ho : outer ∈ a.groupedSections) :
    locksAfter a o outer lock = .ok (o.openSuccessors a.held outer lock) := by
  refine filterM_ok fun after _ => anyM_ok fun label hlabel => ?_
  have hl := labels (LockOrder.mem_labels.mp hlabel)
  have shares : a.sharesStatic outer label =
      .ok (Arena.shareStatic (a.held outer) (a.held label)) := by
    rw [Arena.sharesStatic, bind_ok (lockNums_of_grouped valid hl),
      bind_ok (lockNums_of_grouped valid ho)]
    rfl
  exact bind_ok (look_ok shares)

lemma labels_takeLock (labels : o.LabelsGrouped a) (ho : outer ∈ a.groupedSections)
    (h : LockOrder.takeLock a.held outer inner o lock = .ok o') : o'.LabelsGrouped a := by
  rw [LockOrder.takeLock, LockOrder.foldlM_takeArc fun _ => Iff.rfl] at h
  intro x y s hl
  rcases (LockOrder.takeAll_ok h).mp hl with hl | ⟨_, r, hr, rfl, _⟩
  · exact labels hl
  · obtain ⟨_, _, rfl⟩ := List.mem_map.mp hr
    exact ho

lemma takeLock_ok (valid : a.Valid) (labels : o.LabelsGrouped a) (ho : outer ∈ a.groupedSections) :
    takeLock a outer inner (a.held outer) o lock =
      judge (LockOrder.takeLock a.held outer inner o lock) :=
  bind_check (locksAfter_ok valid labels ho)

/-- What a pass makes of one pair of grouped sections. -/
def pairStep (a : Arena) (outer : SectionId) (o : LockOrder) (inner : SectionId) :
    Except (LockOrder × LockConflict) LockOrder :=
  if a.mayEnter outer inner then LockOrder.takePair a.held o (outer, inner) else .ok o

lemma labels_pairStep (labels : o.LabelsGrouped a) (ho : outer ∈ a.groupedSections)
    (h : pairStep a outer o inner = .ok o') : o'.LabelsGrouped a := by
  unfold pairStep at h
  split at h
  · exact foldlM_keeps labels (fun _ hb _ _ _ => labels_takeLock hb ho) h
  · cases h
    exact labels

lemma takeInner_ok (valid : a.Valid) (labels : o.LabelsGrouped a) (ho : outer ∈ a.groupedSections)
    (hi : inner ∈ a.groupedSections) :
    takeInner a outer (a.held outer) o inner = judge (pairStep a outer o inner) := by
  obtain ⟨s, hs⟩ := exists_of_grouped ho
  obtain ⟨u, hu⟩ := exists_of_grouped hi
  unfold takeInner pairStep
  rw [bind_check (look_ok (enters_ok hs hu))]
  split
  · rw [bind_check (look_ok hs), bind_check (look_ok hu),
      bind_check (look_ok (lockNums_of_grouped valid hi))]
    exact foldlM_judge labels (fun _ hb _ _ => takeLock_ok valid hb ho)
      fun _ hb _ _ _ => labels_takeLock hb ho
  · rfl

lemma takeOuter_ok (valid : a.Valid) (labels : o.LabelsGrouped a) (ho : outer ∈ a.groupedSections) :
    takeOuter a o outer = judge (a.groupedSections.foldlM (pairStep a outer) o) :=
  (bind_check (look_ok (lockNums_of_grouped valid ho))).trans
    (foldlM_judge labels (fun _ hb _ hi => takeInner_ok valid hb ho hi)
      fun _ hb _ _ _ => labels_pairStep hb ho)

lemma pass_eq_foldlM : LockOrder.pass a permanent = a.groupedSections.foldlM
    (fun o outer => a.groupedSections.foldlM (pairStep a outer) o)
    (LockOrder.passStart a permanent) := by
  unfold LockOrder.pass Arena.enteredPairs
  simp only [LockOrder.getD_held]
  rw [LockOrder.foldlM_flatMap]
  congr 1
  funext o outer
  rw [List.foldlM_map, List.foldlM_filter]
  rfl

/-- In a valid arena a checked pass judges like a pass. -/
theorem lockPass_ok (valid : a.Valid) (labels : permanent.LabelsGrouped a) :
    lockPass a permanent = judge (LockOrder.pass a permanent) := by
  have locks : (a.groupedSections.mapM fun t => look (a.lockNums t)) =
      .ok (a.groupedSections.map a.held) :=
    mapM_ok fun t ht => look_ok (lockNums_of_grouped valid ht)
  have start : (LockOrder.passStart a permanent).LabelsGrouped a :=
    fun _ _ _ hl => labels (LockOrder.labelled_passStart.mp hl)
  rw [lockPass, bind_check locks, pass_eq_foldlM]
  exact foldlM_judge start (fun _ hb _ ho => takeOuter_ok valid hb ho)
    fun _ hb _ ho _ h => foldlM_keeps hb (fun _ hb _ _ _ => labels_pairStep hb ho) h

/-! ## One repair -/

/-- Creates an avoidance lock. -/
def synthesize (owner : String) : Edit (LockKey × LockNum) := fun a =>
  .ok (a.locks.synthesize owner).2 { a with locks := (a.locks.synthesize owner).1 }

/-- Gives an avoidance lock to a section, unless it holds it. -/
def give (outer : SectionId) (key : LockKey) (lock : LockNum) (permanent : LockOrder)
    (holder : SectionId) : Edit LockOrder := do
  if (← ask (·.section? holder)).holds key then return permanent
  let locks ← ask (·.lockNums holder)
  let _ ← apply (·.acquire holder key)
  -- the names of the two sections are logged
  let _ ← ask (·.section? outer)
  let _ ← ask (·.section? holder)
  return locks.foldl (fun o n => o.addArc lock n holder) permanent

/-- Breaks a conflict by a new avoidance lock. -/
def avoid (permanent o : LockOrder) (c : LockConflict) : Edit (LockOrder × LockNum) := do
  let outer ← ask (·.section? c.outer)
  let (key, lock) ← synthesize outer.owner
  let permanent ← (LockSearch.implicated o c).foldlM (give c.outer key lock)
    (permanent.addNode lock)
  return (permanent, lock)

variable {p : Progress} {c : LockConflict} {key : LockKey} {holder : SectionId}

lemma give_ok (valid : p.arena.Valid) (ho : outer ∈ p.arena.groupedSections)
    (hh : holder ∈ p.arena.groupedSections) :
    give outer key lock p.permanent holder p.arena =
      .ok (LockSearch.grant outer key lock p holder).permanent
        (LockSearch.grant outer key lock p holder).arena := by
  obtain ⟨s, hs⟩ := exists_of_grouped hh
  have there := Arena.section?_eq_ok.mp hs
  unfold give LockSearch.grant
  rw [bind_edit (ask_ok hs), there]
  dsimp only
  split
  · rfl
  · rename_i lacks
    have acquired : p.arena.acquire holder key = .ok
        (p.arena.modifySection holder fun s => { s with lockset := s.lockset ++ [key] }, true) := by
      rw [Arena.acquire, bind_ok hs, if_neg lacks]
      rfl
    obtain ⟨_, h1⟩ := exists_modifySection (exists_of_grouped ho)
    obtain ⟨_, h2⟩ := exists_modifySection ⟨s, hs⟩
    rw [bind_edit (ask_ok (valid.lockNums there)), bind_edit (apply_ok acquired),
      bind_edit (ask_ok h1), bind_edit (ask_ok h2)]
    rfl

/-- The sections at hand are grouped, and the key has its number. -/
structure Granting (outer : SectionId) (key : LockKey) (lock : LockNum) (hs : List SectionId)
    (p : Progress) : Prop where
  valid : p.arena.Valid
  number : p.arena.locks.find? key = some lock
  outer : outer ∈ p.arena.groupedSections
  holders : ∀ t ∈ hs, t ∈ p.arena.groupedSections

lemma mem_groupedSections_grant :
    t ∈ (LockSearch.grant outer key lock p holder).arena.groupedSections ↔
      t ∈ p.arena.groupedSections := by
  rw [Arena.mem_groupedSections, Arena.mem_groupedSections, LockSearch.sections_grant]
  cases p.arena.sections[t]? with
  | none => simp
  | some s =>
    obtain ⟨more, hm⟩ := s.granted_eq_adding key
    by_cases e : t = holder <;> simp [e, hm, Section.adding, Section.isGrouped]

lemma Granting.grant {hs : List SectionId} (g : Granting outer key lock hs p) :
    Granting outer key lock hs (LockSearch.grant outer key lock p holder) := by
  refine ⟨LockSearch.valid_grant g.valid g.number, ?_, mem_groupedSections_grant.mpr g.outer, ?_⟩
  · rw [LockSearch.locks_grant]
    exact g.number
  · exact fun t ht => mem_groupedSections_grant.mpr (g.holders t ht)

/-- A checked repair of a conflict between grouped sections is a repair. -/
theorem avoid_ok (valid : p.arena.Valid)
    (grouped : ∀ t ∈ LockSearch.implicated o c, t ∈ p.arena.groupedSections) :
    avoid p.permanent o c p.arena =
      .ok ((p.repaired o c).permanent, p.newLock c) (p.repaired o c).arena := by
  have ho : c.outer ∈ p.arena.groupedSections := grouped _ List.mem_cons_self
  obtain ⟨s, hs⟩ := exists_of_grouped ho
  have owner : s.owner = p.owner c := by
    rw [Progress.owner, Arena.section?_eq_ok.mp hs]
    rfl
  have granting : Granting c.outer (p.newKey c) (p.newLock c) (LockSearch.implicated o c)
      (p.creating c) :=
    ⟨LockSearch.Progress.valid_creating valid, LockSearch.find?_creating, ho, grouped⟩
  have given := foldlM_edit (v := Progress.permanent) (w := Progress.arena) granting
    fun _ g t ht => ⟨give_ok g.valid g.outer (g.holders t ht), g.grant⟩
  have made : synthesize s.owner p.arena =
      .ok (p.newKey c, p.newLock c) (p.creating c).arena := by
    rw [owner]
    rfl
  unfold avoid
  rw [bind_edit (ask_ok hs), bind_edit made]
  exact bind_edit given

/-! ## The search -/

/-- What a search leaves, apart from the arena. -/
structure LockFinding where
  order : LockOrder
  status : Status LockConflict
  iterations : Nat
  repairs : List LockConflict

/-- Passes until one meets no conflict, or until the given number of passes is used up. -/
def lockPasses (config : Config) : Nat → Nat → LockOrder → LockOrder → List LockConflict →
    Edit LockFinding
  | 0, _, _, last, repairs =>
    return { order := last
             status := .didNotConverge config.maxIterations repairs.getLast?
             iterations := config.maxIterations
             repairs }
  | left + 1, number, permanent, _, repairs => do
    match ← read fun a => lockPass a permanent with
    | .ok order =>
      return { order
               status := if repairs.isEmpty then .acyclic else .repaired repairs.length
               iterations := number
               repairs }
    | .error (order, c) =>
      if config.repair then
        let (permanent, lock) ← avoid permanent order c
        lockPasses config left (number + 1) permanent order
          (repairs ++ [{ c with avoidanceLock := some lock }])
      else
        return { order := if c.held = c.requested then order
                          else order.addArc c.held c.requested c.outer
                 status := .deadlockReported c
                 iterations := number
                 repairs }

/-- Searches an arena for deadlocks on locks. -/
def detectLocks (oracle : Oracle) (config : Config) : Edit LockFinding := do
  ask (·.validate)
  ensureAll oracle
  lockPasses config config.maxIterations 1 .empty .empty []

/-- What a search leaves. -/
def LockFinding.of (s : LockSearch) : LockFinding where
  order := s.order
  status := s.status
  iterations := s.iterations
  repairs := s.repairs

variable {config : Config} {oracle : Oracle} {k : Nat}

/-- The sections that a conflict names are grouped. -/
def Located (a : Arena) (c : LockConflict) : Prop :=
  c.outer ∈ a.groupedSections ∧ c.inner ∈ a.groupedSections

/-- The arena is valid, and the orders and the repairs name grouped sections only. -/
structure Traceable (p : Progress) : Prop where
  valid : p.arena.Valid
  grounded : p.Grounded
  last : p.last.LabelsGrouped p.arena
  repairs : ∀ c ∈ p.repairs, Located p.arena c

lemma Traceable.labels (h : Traceable p) : p.permanent.LabelsGrouped p.arena :=
  fun _ _ _ hl => (h.grounded hl).1

lemma located_of_stopped (hs : LockOrder.Stopped p.arena p.permanent o c) : Located p.arena c := by
  obtain ⟨ho, hi, _⟩ := Arena.mem_enteredPairs.mp hs.entered
  exact ⟨ho, hi⟩

lemma mem_groupedSections_repaired :
    t ∈ (p.repaired o c).arena.groupedSections ↔ t ∈ p.arena.groupedSections :=
  LockSearch.grows_repaired.mem_groupedSections

lemma Located.repaired {d : LockConflict} (h : Located p.arena d) :
    Located (p.repaired o c).arena d :=
  ⟨mem_groupedSections_repaired.mpr h.1, mem_groupedSections_repaired.mpr h.2⟩

/-- A repair names grouped sections only. -/
lemma Traceable.repaired (h : Traceable p) (hs : LockOrder.Stopped p.arena p.permanent o c) :
    Traceable (p.repaired o c) := by
  refine ⟨LockSearch.Progress.valid_repaired h.valid, h.grounded.repaired hs, ?_, ?_⟩
  · exact fun x y t hl => mem_groupedSections_repaired.mpr (h.grounded.label_grouped hs hl)
  · intro d hd
    rw [LockSearch.repairs_repaired] at hd
    rcases List.mem_append.mp hd with hd | hd
    · exact (h.repairs d hd).repaired
    · cases List.mem_singleton.mp hd
      exact (located_of_stopped hs).repaired

lemma number_repaired : (p.repaired o c).number = p.number + 1 := by
  rw [Progress.number, LockSearch.repairs_repaired, List.length_append]
  rfl

lemma traceable_start (valid : a.Valid) : Traceable (LockSearch.start a oracle) :=
  ⟨valid.ensureAllTargets, LockSearch.grounded_start,
    fun _ _ _ h => absurd h LockOrder.not_labelled_empty, nofun⟩

lemma lockPasses_ok (h : Traceable p) :
    lockPasses config k p.number p.permanent p.last p.repairs p.arena =
      .ok (.of (LockSearch.run config k p)) (LockSearch.run config k p).arena := by
  induction k generalizing p with
  | zero => rfl
  | succ k ih =>
    have judged : read (fun a => lockPass a p.permanent) p.arena =
        .ok (LockOrder.pass p.arena p.permanent) p.arena :=
      read_ok (lockPass_ok h.valid h.labels)
    unfold lockPasses LockSearch.run
    rw [bind_edit judged]
    cases hp : LockOrder.pass p.arena p.permanent with
    | ok order =>
      have status : (if p.repairs.isEmpty then .acyclic else .repaired p.repairs.length) =
          (p.finish order).status := by
        rw [Progress.finish]
        cases p.repairs <;> rfl
      dsimp only
      rw [status]
      rfl
    | error e =>
      obtain ⟨o, c⟩ := e
      have hs := LockOrder.pass_error hp
      dsimp only
      split
      · rw [bind_edit (avoid_ok h.valid fun t ht => h.grounded.implicated_grouped hs ht)]
        have rest := ih (h.repaired hs)
        rw [number_repaired] at rest
        exact rest
      · rfl

/-- What a search leaves names grouped sections of a valid arena only. -/
structure FoundTraceable (s : LockSearch) : Prop where
  valid : s.arena.Valid
  order : s.order.LabelsGrouped s.arena
  repairs : ∀ c ∈ s.repairs, Located s.arena c
  conflict : ∀ c, conflict? s.status = some c → Located s.arena c

lemma Traceable.run (h : Traceable p) : FoundTraceable (LockSearch.run config k p) := by
  induction k generalizing p with
  | zero =>
    exact ⟨h.valid, h.last, h.repairs, fun c hc => h.repairs c (List.mem_of_getLast? hc)⟩
  | succ k ih =>
    unfold LockSearch.run
    cases hp : LockOrder.pass p.arena p.permanent with
    | ok order =>
      dsimp only
      refine ⟨h.valid, ?_, h.repairs, ?_⟩
      · intro x y t hl
        rcases (LockOrder.pass_ok hp).mp hl with hl | ⟨_, orders⟩
        · exact h.labels hl
        · exact orders.1
      · intro c hc
        rw [Progress.finish] at hc
        dsimp only at hc
        split at hc <;> cases hc
    | error e =>
      obtain ⟨o, c⟩ := e
      have hs := LockOrder.pass_error hp
      have located := located_of_stopped hs
      dsimp only
      split
      · exact ih (h.repaired hs)
      · refine ⟨h.valid, ?_, h.repairs, ?_⟩
        · intro x y t hl
          rw [Progress.report] at hl
          dsimp only at hl
          split at hl
          · exact h.grounded.label_grouped hs hl
          · rcases LockOrder.labelled_addArc.mp hl with ⟨rfl, rfl, rfl⟩ | hl
            · exact located.1
            · exact h.grounded.label_grouped hs hl
        · intro d hd
          cases hd
          exact located

/-- In a valid arena a checked search ends like the search. -/
theorem detectLocks_ok (oracle : Oracle) (config : Config) (valid : a.validate = .ok ()) :
    ∃ found, a.searchLocks oracle config = .ok found ∧ FoundTraceable found ∧
      detectLocks oracle config a = .ok (.of found) found.arena := by
  have start : Traceable (LockSearch.start a oracle) :=
    traceable_start (Arena.validate_eq_ok.mp valid)
  refine ⟨_, Arena.searchLocks_eq_ok.mpr ⟨valid, rfl⟩, start.run, ?_⟩
  unfold detectLocks
  rw [bind_edit (ask_ok valid), bind_edit ensureAll_ok]
  exact lockPasses_ok start

end Interlock.Checked
