import Interlock.Analysis
import Interlock.Proofs.Checked.Access

/-!
# A checked report

The parts of a report with all their look-ups: of the sections that conflicts and arcs name, and of
the locks of every section. They go through in a valid arena that has these sections
(`nameConflict_ok`, `lockArcs_ok`, `heldLock_ok`, `sectionLocks_ok`).
-/

namespace Interlock.Checked

/-- The name of a section. -/
def sectionName (a : Arena) (t : SectionId) : Except Trap String := do
  return (← look (a.section? t)).name

/-- A conflict with the names of its sections. -/
def nameConflict (a : Arena) (outer inner : SectionId) (kind : ConflictKind) :
    Except Trap NamedConflict := do
  return { outer := ← sectionName a outer, inner := ← sectionName a inner, kind }

/-- A conflict between groups with the names of its sections. -/
def nameGroupConflict (a : Arena) (c : GroupConflict) : Except Trap NamedConflict :=
  nameConflict a c.outer c.inner (.group c.outerGroup c.innerGroup)

/-- A conflict on locks with the names of its sections. -/
def nameLockConflict (a : Arena) (c : LockConflict) : Except Trap NamedConflict :=
  nameConflict a c.outer c.inner (.lock c.held c.requested c.avoidanceLock)

/-- The arcs of an order of locks, with the sections that justify them. -/
def lockArcs (a : Arena) (order : LockOrder) : Except Trap (List NamedArc) :=
  order.arcs.mapM fun (m, n) => do
    return { first := toString m, after := toString n
             labels := ← (order.labels m n).mapM (sectionName a) }

/-- A section with the first key of its lockset that stands for the lock, if there is one. -/
def holder? (a : Arena) (lock : LockNum) (t : SectionId) :
    Except Trap (Option (Section × LockKey)) := do
  let s ← look (a.section? t)
  let key ← s.lockset.findM? fun key => do return (← look (a.locks.number key)) == lock
  return key.map (s, ·)

/-- An avoidance lock with its holders. -/
def heldLock (a : Arena) (lock : LockNum) : Except Trap HeldLock := do
  let holders := (← a.sectionIds.mapM (holder? a lock)).filterMap id
  return { lock
           name := ((holders.getLast?).map (·.2.text)).getD ""
           holders := holders.map (·.1.name) }

/-- The locks of all sections. -/
def sectionLocks (a : Arena) : Except Trap (List SectionLocks) :=
  a.sectionIds.mapM fun t => do
    let s ← look (a.section? t)
    return { region := s.name, group := s.group, locks := ← look (a.lockNums t) }

variable {a : Arena} {t outer inner : SectionId} {s : Section} {lock : LockNum} {order : LockOrder}

lemma sectionName_ok (h : ∃ s, a.section? t = .ok s) : sectionName a t = .ok (a.nameOf t) := by
  obtain ⟨s, hs⟩ := h
  rw [sectionName, bind_ok (look_ok hs), Arena.nameOf, Arena.section?_eq_ok.mp hs]
  rfl

lemma nameConflict_ok {kind : ConflictKind} (ho : ∃ s, a.section? outer = .ok s)
    (hi : ∃ s, a.section? inner = .ok s) : nameConflict a outer inner kind =
      .ok { outer := a.nameOf outer, inner := a.nameOf inner, kind } := by
  rw [nameConflict, bind_ok (sectionName_ok ho), bind_ok (sectionName_ok hi)]
  rfl

lemma lockArcs_ok (labels : order.LabelsGrouped a) : lockArcs a order = .ok (a.lockArcs order) := by
  refine mapM_ok ?_
  rintro ⟨m, n⟩ _
  have names : (order.labels m n).mapM (sectionName a) = .ok ((order.labels m n).map a.nameOf) :=
    mapM_ok fun label hl => sectionName_ok (exists_of_grouped (labels (LockOrder.mem_labels.mp hl)))
  exact bind_ok names

/-- What is asked of each section by number is asked of its record. -/
lemma mapM_sectionIds {β : Type} {f : SectionId → Except Trap β} {g : Section → SectionId → β}
    (h : ∀ (t : SectionId) s, a.sections[t]? = some s → f t = .ok (g s t)) :
    a.sectionIds.mapM f = .ok (a.sections.zipIdx.map fun (s, t) => g s t) := by
  have ids : a.sectionIds = a.sections.zipIdx.map (·.2) := by
    rw [List.zipIdx_map_snd, Arena.sectionIds, List.range_eq_range']
  rw [ids, List.mapM_map]
  refine mapM_ok ?_
  rintro ⟨s, t⟩ hmem
  exact h t s (List.mk_mem_zipIdx_iff_getElem?.mp hmem)

lemma holder?_ok (valid : a.Valid) (hs : a.sections[t]? = some s) : holder? a lock t =
    .ok ((s.lockset.find? fun key => a.locks.find? key == some lock).map (s, ·)) := by
  have keys : s.lockset.findM? (fun key => do return (← look (a.locks.number key)) == lock) =
      .ok (s.lockset.find? fun key => a.locks.find? key == some lock) := by
    refine findM?_ok fun key hk => ?_
    obtain ⟨n, hn⟩ := (valid.sections hs).keys key hk
    rw [bind_ok (look_ok (Arena.number_eq_ok.mpr hn)), hn]
    rfl
  rw [holder?, bind_ok (look_ok (Arena.section?_eq_ok.mpr hs)), bind_ok keys]
  rfl

lemma heldLock_ok (valid : a.Valid) : heldLock a lock = .ok (a.heldLock lock) := by
  have holders := mapM_sectionIds (a := a) (f := holder? a lock) fun t s hs => holder?_ok valid hs
  have same : (a.sections.zipIdx.map fun (s, _) =>
      (s.lockset.find? fun key => a.locks.find? key == some lock).map (s, ·)).filterMap id =
      a.holdersOf lock := by
    rw [Arena.holdersOf, List.filterMap_map]
    conv_rhs => rw [← List.zipIdx_map_fst 0 a.sections, List.filterMap_map]
    rfl
  rw [heldLock, bind_ok holders]
  dsimp only
  rw [same]
  rfl

lemma sectionLocks_ok (valid : a.Valid) : sectionLocks a = .ok a.sectionLocks := by
  unfold sectionLocks Arena.sectionLocks
  refine mapM_sectionIds
    (g := fun s t => ({ region := s.name, group := s.group, locks := a.held t } : SectionLocks))
    fun t s hs => ?_
  rw [bind_ok (look_ok (Arena.section?_eq_ok.mpr hs)), bind_ok (look_ok (valid.lockNums hs))]
  rfl

end Interlock.Checked
