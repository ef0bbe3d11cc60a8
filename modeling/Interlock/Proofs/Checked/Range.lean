import Interlock.Proofs.Checked.Step

/-!
# Indices out of range

Operations go to sections and groups by position once they have looked them up, and to the sections
that a group lists without looking. The latter exist in every arena (`Reachable.membersExist`). An
assignment also goes, without looking, to the group that the section's record names, and a record
that was rewritten may name one that does not exist (`Arena.Loses`). That is the only index that is
ever out of range (`Call.stops_at_lost_group`), and there is none where the records of sections and
groups agree.
-/

namespace Interlock

namespace Arena

/-- The group and the section exist, and the section's record names a group that does not. -/
structure Loses (a : Arena) (i : SectionId) (g k : GroupId) : Prop where
  group : g < a.groups.length
  named : ∃ s, a.sections[i]? = some s ∧ s.group = some k
  missing : a.groups.length ≤ k

variable {a : Arena} {i : SectionId} {g k : GroupId}

/-- An assignment cannot leave a group that does not exist. -/
lemma assignGroup_eq_lostGroup : a.assignGroup i g = .error (.lostGroup k) ↔ a.Loses i g k := by
  constructor
  · intro lost
    rcases assignGroup_cases a i g with ⟨_, _, _, _, hb⟩ | ⟨f, hf⟩ | ⟨s, m, hs, hm, out, hf⟩
    · rw [lost] at hb
      cases hb
    · rw [lost] at hf
      cases hf
    · rw [lost] at hf
      cases hf
      refine ⟨?_, ⟨s, hs, hm⟩, out⟩
      -- a group that does not exist is a fault, which comes first
      by_contra missing
      have absent : a.groups[g]? = none := List.getElem?_eq_none (Nat.not_lt.mp missing)
      obtain ⟨f, hf⟩ := assignGroup_of_missing (.inl absent)
      rw [lost] at hf
      cases hf
  · rintro ⟨there, ⟨s, hs, hk⟩, out⟩
    exact assignGroup_of_lost (List.getElem?_eq_getElem there) hs hk out

end Arena

namespace Checked

variable {α σ : Type}

/-- An operation on a program under construction, or a look-up in its arena. -/
inductive Call where
  | step (st : Step)
  | lockNums (i : SectionId)
  | sharesStatic (s t : SectionId)
  | validate

namespace Call

/-- The kind of what a call returns. -/
abbrev Answer : Call → Type
  | step st => st.Answer
  | lockNums _ => List LockNum
  | sharesStatic _ _ => Bool
  | validate => Unit

/-- A call, one access after the other. -/
def run : (c : Call) → EStateM Trap Program c.Answer
  | step st => st.run
  | lockNums i => onArena (ask (·.lockNums i))
  | sharesStatic s t => onArena (ask (·.sharesStatic s t))
  | validate => onArena (ask (·.validate))

end Call

/-- The computation stops at no index out of range. -/
def InRange (r : EStateM.Result Trap σ α) : Prop :=
  ∀ t s, r = .error t s → ∃ cause, t = .fault cause

variable {p q : Program} {c : Call} {st : Step} {t : Trap}

lemma look_eq_error {x : Except Fault α} (h : look x = .error t) : ∃ cause, t = .fault cause := by
  cases x with
  | error cause =>
    cases h
    exact ⟨cause, rfl⟩
  | ok v => cases h

lemma inRange_settle {s : σ} {x : Except Fault α} : InRange (settle (s, look x)) :=
  fun _ _ h => look_eq_error (settle_eq_error.mp h).2

lemma inRange_settleOr {s : σ} {x : Except Fault (σ × α)} : InRange (settleOr s (look x)) := by
  cases x with
  | error cause =>
    intro t s h
    cases h
    exact ⟨cause, rfl⟩
  | ok r => exact fun _ _ => nofun

lemma inRange_ask {f : Arena → Except Fault α} {a : Arena} : InRange (ask f a) := by
  intro t b h
  cases hx : f a with
  | ok v =>
    rw [ask_ok hx] at h
    cases h
  | error cause =>
    rw [ask_error hx] at h
    cases h
    exact ⟨cause, rfl⟩

lemma InRange.onPart {part : Program → σ} {put : Program → σ → Program} {x : EStateM Trap σ α}
    (h : InRange (x (part p))) : InRange (onPart part put x p) := by
  intro t q hq
  obtain ⟨s, hs, _⟩ := onPart_eq_error.mp hq
  exact h t s hs

/-- A section that is added is in no group that it would have to leave. -/
lemma inRange_addSectionTo {a : Arena} {s : Section} {g : GroupId} :
    InRange (settle ((a.addSectionTo s g).1, (a.addSectionTo s g).2.mapError (assignTrap a))) := by
  intro t b h
  obtain ⟨_, h⟩ := settle_eq_error.mp h
  cases hg : a.groups[g]? with
  | some group =>
    rw [Arena.addSectionTo_joining hg] at h
    cases h
  | none =>
    rw [Arena.addSectionTo_of_missing hg] at h
    cases h
    exact ⟨_, rfl⟩

/-- A call that assigns no section stops at no index out of range. -/
lemma Call.inRange (reachable : p.arena.Reachable) (other : ∀ i g, c ≠ .step (.assignGroup i g)) :
    InRange (c.run p) := by
  unfold run
  cases c with
  | lockNums i => exact .onPart inRange_ask
  | sharesStatic s t => exact .onPart inRange_ask
  | validate => exact .onPart inRange_ask
  | step st =>
    dsimp only
    rw [Step.run_eq reachable]
    unfold Step.outcome
    cases st with
    | assignGroup i g => exact absurd rfl (other i g)
    | addSectionTo s g => exact .onPart inRange_addSectionTo
    | mergeGroups into source => exact .onPart inRange_settleOr
    | acquire i key => exact .onPart inRange_settleOr
    | replaceLockset i lockset => exact .onPart inRange_settleOr
    | addAlias key n => exact .onPart inRange_settleOr
    | addSite caller => exact .onPart inRange_settleOr
    | addEdge i target kind => exact .onPart inRange_settleOr
    | addCall caller target => exact .onPart inRange_settle

/-- An assignment stops at an index out of range if the section's group is lost, and leaves the
program. -/
lemma Call.assign_eq_error {i : SectionId} {g : GroupId} :
    (Call.step (.assignGroup i g)).run p = .error t q ∧ (¬ ∃ cause, t = .fault cause) ↔
      ∃ k, p.arena.Loses i g k ∧ t = .outOfRange k p.arena.groups.length ∧ q = p := by
  have run : (Call.step (.assignGroup i g)).run p =
      onArena (fun a => settleOr a (((a.assignGroup i g).mapError (assignTrap a)).map (·, ())))
        p := by
    show onArena (assign i g) p = _
    exact onPart_congr assign_eq
  rw [run]
  cases hb : p.arena.assignGroup i g with
  | ok b =>
    constructor
    · rintro ⟨h, _⟩
      obtain ⟨a, ha, _⟩ := onPart_eq_error.mp h
      rw [hb] at ha
      cases ha
    · rintro ⟨k, lost, _⟩
      rw [Arena.assignGroup_eq_lostGroup.mpr lost] at hb
      cases hb
  | error f =>
    have stops :
      onArena (fun a => settleOr a (((a.assignGroup i g).mapError (assignTrap a)).map (·, ()))) p =
        .error (assignTrap p.arena f) p := by
      refine onPart_eq_error.mpr ⟨p.arena, ?_, rfl⟩
      rw [hb]
      rfl
    rw [stops]
    constructor
    · rintro ⟨h, outside⟩
      cases h
      cases f with
      | fault cause => exact absurd ⟨cause, rfl⟩ outside
      | lostGroup k => exact ⟨k, Arena.assignGroup_eq_lostGroup.mp hb, rfl, rfl⟩
    · rintro ⟨k, lost, rfl, rfl⟩
      rw [Arena.assignGroup_eq_lostGroup.mpr lost] at hb
      cases hb
      exact ⟨rfl, nofun⟩

namespace Call

/-- How a call may end. -/
structure Ends (c : Call) (p : Program) : Prop where
  /-- It stops at an index out of range only if it assigns a section whose record names a group that
  does not exist, and then it always does and leaves the program as it was. -/
  stops : ∀ t q, (c.run p = .error t q ∧ ¬ ∃ cause, t = .fault cause) ↔
    ∃ i g k, c = .step (.assignGroup i g) ∧ p.arena.Loses i g k ∧
      t = .outOfRange k p.arena.groups.length ∧ q = p
  /-- Where the records of sections and groups agree it returns, or fails with a fault. -/
  returns : p.arena.Coherent → (∃ x q, c.run p = .ok x q) ∨ ∃ cause q,
  c.run p = .error (.fault cause) q

/-- Whatever led to an arena, and however its sections were rewritten, the only index that a call
finds out of range is that of a group which a section's record names and which does not exist. -/
theorem stops_at_lost_group (reachable : p.arena.Reachable) (c : Call) : c.Ends p := by
  have stops : ∀ t q, (c.run p = .error t q ∧ ¬ ∃ cause, t = .fault cause) ↔
      ∃ i g k, c = .step (.assignGroup i g) ∧ p.arena.Loses i g k ∧
        t = .outOfRange k p.arena.groups.length ∧ q = p := by
    intro t q
    by_cases assigns : ∃ i g, c = .step (.assignGroup i g)
    · obtain ⟨i, g, rfl⟩ := assigns
      rw [assign_eq_error]
      constructor
      · rintro ⟨k, ends⟩
        exact ⟨i, g, k, rfl, ends⟩
      · rintro ⟨_, _, k, e, ends⟩
        cases e
        exact ⟨k, ends⟩
    · constructor
      · rintro ⟨h, outside⟩
        exact absurd (Call.inRange reachable (fun i g e => assigns ⟨i, g, e⟩) t q h) outside
      · rintro ⟨i, g, _, e, _⟩
        exact absurd ⟨i, g, e⟩ assigns
  refine ⟨stops, fun coherent => ?_⟩
  cases h : c.run p with
  | ok x q => exact .inl ⟨x, q, rfl⟩
  | error t q =>
    by_cases fault : ∃ cause, t = .fault cause
    · obtain ⟨cause, rfl⟩ := fault
      exact .inr ⟨cause, q, rfl⟩
    · obtain ⟨i, g, k, _, lost, _⟩ := (stops t q).mp ⟨h, fault⟩
      exact absurd (Arena.assignGroup_eq_lostGroup.mpr lost) (coherent.not_lost i g k)

/-- A section whose record was rewritten to name a group that does not exist. -/
def rewritten : Arena :=
  ((Arena.empty.addGroup.1).addSection
    { name := "s", method := 0, owner := "App" }).1.modifySection 0 ({ · with group := some 7 })

lemma reachable_rewritten : rewritten.Reachable :=
  .edited _ 0 _ (.performed _ (.addSection _) (.performed _ .addGroup (.empty .empty)))

/-- The section cannot be assigned to the group that there is. -/
theorem stops_at_lost_group_rewritten :
    rewritten.Reachable ∧ (step (.assignGroup 0 0)).Ends { arena := rewritten, calls := {} } ∧
      (step (.assignGroup 0 0)).run { arena := rewritten, calls := {} } =
        .error (.outOfRange 7 1) { arena := rewritten, calls := {} } :=
  ⟨reachable_rewritten, stops_at_lost_group reachable_rewritten _, rfl⟩

/-- There is an arena where a call neither returns nor fails with a fault. -/
theorem index_out_of_range :
    ¬ ∀ (p : Program) (c : Call), p.arena.Reachable →
      (∃ x q, c.run p = .ok x q) ∨ ∃ cause q, c.run p = .error (.fault cause) q := by
  intro ends
  rcases ends { arena := rewritten, calls := {} } (step (.assignGroup 0 0)) reachable_rewritten with
    ⟨x, q, h⟩ | ⟨cause, q, h⟩
  · cases h
  · cases h

end Call

end Checked

end Interlock
