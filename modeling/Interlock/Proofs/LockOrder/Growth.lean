import Interlock.Proofs.Lock.Table
import Interlock.Proofs.LockOrder.Arcs
import Interlock.Proofs.Targets

/-!
# Arenas that grow

A repair puts further keys at the end of locksets and further keys into the lock table, and changes
nothing else that a search reads. `Arena.Grows` says so of two arenas. What a search reads of a
section apart from its locks stays (`Grows.mem_groupedSections`, `Grows.mayEnter`), what it holds
stays (`Grows.held`), and so does whom it excludes (`Grows.excludes`).
-/

namespace Interlock

/-- The section with more keys at the end of its lockset. -/
def Section.adding (s : Section) (more : List LockKey) : Section :=
  { s with lockset := s.lockset ++ more }

@[simp] lemma Section.adding_nil (s : Section) : s.adding [] = s := by
  simp [adding]

@[simp] lemma Section.adding_adding (s : Section) (more rest : List LockKey) :
    (s.adding more).adding rest = s.adding (more ++ rest) := by
  simp [adding]

namespace Arena

variable {a b c : Arena} {oracle : Oracle} {s t : SectionId} {n : LockNum}

/-- A section's locks are the numbers of its keys. -/
lemma mem_held :
    n ∈ a.held t ↔
      ∃ s key, a.sections[t]? = some s ∧ key ∈ s.lockset ∧ a.locks.find? key = some n := by
  unfold held
  cases h : a.sections[t]? with
  | none => simp
  | some s => simp [List.mem_filterMap]

/-- The grouped sections are those whose record names a group. -/
lemma mem_groupedSections :
    t ∈ a.groupedSections ↔ ∃ s, a.sections[t]? = some s ∧ s.isGrouped = true := by
  simp only [groupedSections, List.mem_filterMap]
  constructor
  · rintro ⟨⟨s, i⟩, hmem, h⟩
    rw [List.mk_mem_zipIdx_iff_getElem?] at hmem
    split at h
    · rename_i hg
      cases h
      exact ⟨s, hmem, hg⟩
    · cases h
  · rintro ⟨s, hs, hg⟩
    refine ⟨(s, t), List.mk_mem_zipIdx_iff_getElem?.mpr hs, ?_⟩
    simp [hg]

/-- Known targets do not change which sections are grouped. -/
@[simp] lemma groupedSections_ensureAllTargets :
    (a.ensureAllTargets oracle).groupedSections = a.groupedSections := by
  have grouped : ∀ s : Section, (s.withTargets oracle).isGrouped = s.isGrouped := by
    intro s
    obtain ⟨targets, ht⟩ := s.exists_withTargets oracle
    rw [ht]
    rfl
  simp only [groupedSections, ensureAllTargets, List.zipIdx_map, List.filterMap_map]
  congr 1
  funext entry
  obtain ⟨s, i⟩ := entry
  simp [grouped]

/-- The second arena is the first with more keys at the end of locksets and in the lock table. -/
structure Grows (a b : Arena) : Prop where
  sections : ∀ i : SectionId, ∃ more, b.sections[i]? = (a.sections[i]?).map (·.adding more)
  numbers : ∀ {key n}, a.locks.find? key = some n → b.locks.find? key = some n

lemma Grows.refl (a : Arena) : Grows a a := by
  refine ⟨fun i => ⟨[], ?_⟩, id⟩
  simp

lemma Grows.trans (h : Grows a b) (k : Grows b c) : Grows a c := by
  refine ⟨fun i => ?_, fun hn => k.numbers (h.numbers hn)⟩
  obtain ⟨more, hm⟩ := h.sections i
  obtain ⟨rest, hr⟩ := k.sections i
  refine ⟨more ++ rest, ?_⟩
  rw [hr, hm, Option.map_map]
  congr 1
  funext s
  exact s.adding_adding more rest

lemma Grows.mem_groupedSections (h : Grows a b) :
    t ∈ b.groupedSections ↔ t ∈ a.groupedSections := by
  obtain ⟨more, hm⟩ := h.sections t
  rw [Arena.mem_groupedSections, Arena.mem_groupedSections, hm]
  cases a.sections[t]? with
  | none => simp
  | some s => simp [Section.isGrouped, Section.adding]

lemma Grows.mayEnter (h : Grows a b) : b.mayEnter s t = a.mayEnter s t := by
  obtain ⟨more, hm⟩ := h.sections s
  obtain ⟨rest, hr⟩ := h.sections t
  unfold Arena.mayEnter
  rw [hm, hr]
  cases a.sections[s]? <;> cases a.sections[t]? <;> rfl

/-- A section holds what it held. -/
lemma Grows.held (h : Grows a b) (hn : n ∈ a.held t) : n ∈ b.held t := by
  obtain ⟨s, key, hs, hk, hf⟩ := mem_held.mp hn
  obtain ⟨more, hm⟩ := h.sections t
  rw [hs, Option.map_some] at hm
  exact mem_held.mpr ⟨_, key, hm, List.mem_append_left _ hk, h.numbers hf⟩

/-- Sections that exclude each other go on to do so. -/
lemma Grows.excludes (h : Grows a b) (hx : a.Excludes s t) : b.Excludes s t := by
  obtain ⟨n, hn, hs, ht⟩ := excludes_iff.mp hx
  exact excludes_iff.mpr ⟨n, hn, h.held hs, h.held ht⟩

end Arena

end Interlock
