import Interlock.Analysis
import Interlock.Proofs.Checked.Construction

/-!
# Steps that fail

A step of the construction of a program (`Step`) is run one write after the other, which comes to
what its operation does (`Step.run_eq`). A step that fails leaves the program as it was, with two
exceptions: a section that is added to a group that does not exist stays in no group, and a call
site that is added with a call of a method that does not exist stays without an edge
(`Step.residue?`, `Step.leaves_residue`).
-/

namespace Interlock.Checked

variable {α σ : Type}

/-- A step of a construction. -/
inductive Step where
  | addSectionTo (s : Section) (g : GroupId)
  | assignGroup (i : SectionId) (g : GroupId)
  | mergeGroups (into source : GroupId)
  | acquire (i : SectionId) (key : LockKey)
  | replaceLockset (i : SectionId) (lockset : List LockKey)
  | addAlias (key : LockKey) (n : LockNum)
  | addSite (caller : MethodId)
  | addEdge (i : SiteId) (target : MethodId) (kind : CallKind)
  | addCall (caller target : MethodId)

/-- A computation on a part of a program. -/
def onPart (part : Program → σ) (put : Program → σ → Program) (x : EStateM Trap σ α) :
    EStateM Trap Program α := fun p =>
  match x (part p) with
  | .ok v s => .ok v (put p s)
  | .error t s => .error t (put p s)

/-- A computation on the arena of a program. -/
abbrev onArena : Edit α → EStateM Trap Program α :=
  onPart Program.arena fun p arena => { p with arena }

/-- A computation on the lock table of a program. -/
abbrev onLocks : EStateM Trap LockTable α → EStateM Trap Program α :=
  onPart (·.arena.locks) fun p locks => { p with arena := { p.arena with locks } }

/-- A computation on the call graph of a program. -/
abbrev onCalls : EStateM Trap CallGraph α → EStateM Trap Program α :=
  onPart Program.calls fun p calls => { p with calls }

namespace Step

/-- The kind of what a step returns. -/
abbrev Answer : Step → Type
  | addSectionTo _ _ => SectionId
  | acquire _ _ => Bool
  | addSite _ | addCall _ _ => SiteId
  | assignGroup _ _ | mergeGroups _ _ | replaceLockset _ _ | addAlias _ _ | addEdge _ _ _ => Unit

/-- A step, one write after the other. -/
def run : (st : Step) → EStateM Trap Program st.Answer
  | addSectionTo s g => onArena (enter s g)
  | assignGroup i g => onArena (assign i g)
  | mergeGroups into source => onArena (merge into source)
  | acquire i key => onArena (Checked.acquire i key)
  | replaceLockset i lockset => onArena (Checked.replaceLockset i lockset)
  | addAlias key n => onLocks (Checked.addAlias key n)
  | addSite caller => onCalls (Checked.addSite caller)
  | addEdge i target kind => onCalls (Checked.addEdge i target kind)
  | addCall caller target => onCalls (Checked.addCall caller target)

/-- A step by the operation that it stands for. -/
def outcome : (st : Step) → EStateM Trap Program st.Answer
  | addSectionTo s g => onArena fun a =>
      settle ((a.addSectionTo s g).1, (a.addSectionTo s g).2.mapError (assignTrap a))
  | assignGroup i g => onArena fun a =>
      settleOr a (((a.assignGroup i g).mapError (assignTrap a)).map (·, ()))
  | mergeGroups into source => onArena fun a =>
    settleOr a (look ((a.mergeGroups into source).map (·, ())))
  | acquire i key => onArena fun a => settleOr a (look (a.acquire i key))
  | replaceLockset i lockset => onArena fun a =>
    settleOr a (look ((a.replaceLockset i lockset).map (·, ())))
  | addAlias key n => onLocks fun t => settleOr t (look ((t.addAlias key n).map (·, ())))
  | addSite caller => onCalls fun c => settleOr c (look (c.addSite caller))
  | addEdge i target kind => onCalls fun c =>
    settleOr c (look ((c.addEdge i target kind).map (·, ())))
  | addCall caller target => onCalls fun c =>
      settle ((c.addCall caller target).1, look (c.addCall caller target).2)

/-- What a step leaves if it fails after a write: a section in no group, or a call site without an
edge. -/
def residue? (p : Program) : Step → Option Program
  | addSectionTo s g =>
    if g < p.arena.groups.length then none else some { p with arena := (p.arena.addSection s).1 }
  | addCall caller target =>
    if caller < p.calls.methods.length ∧ ¬ target < p.calls.methods.length then
      some { p with calls := { p.calls with sites := p.calls.sites ++ [{ caller }] } }
    else none
  | assignGroup _ _ | mergeGroups _ _ | acquire _ _ | replaceLockset _ _ | addAlias _ _ | addSite _
  | addEdge _ _ _ => none

end Step

variable {p q : Program} {st : Step} {trap : Trap}

lemma onPart_congr {part : Program → σ} {put : Program → σ → Program} {x y : EStateM Trap σ α}
    (h : x (part p) = y (part p)) : onPart part put x p = onPart part put y p := by
  unfold onPart
  rw [h]

lemma onPart_eq_error {part : Program → σ} {put : Program → σ → Program} {x : EStateM Trap σ α} :
    onPart part put x p = .error trap q ↔ ∃ s, x (part p) = .error trap s ∧ q = put p s := by
  unfold onPart
  constructor
  · intro h
    cases hx : x (part p) with
    | ok v s =>
      rw [hx] at h
      cases h
    | error t s =>
      rw [hx] at h
      cases h
      exact ⟨s, rfl, rfl⟩
  · rintro ⟨s, hx, rfl⟩
    rw [hx]

lemma settle_eq_error {s s' : σ} {x : Except Trap α} :
    settle (s', x) = .error trap s ↔ s = s' ∧ x = .error trap := by
  cases x with
  | error t =>
    constructor
    · intro h
      cases h
      exact ⟨rfl, rfl⟩
    · rintro ⟨rfl, h⟩
      cases h
      rfl
  | ok v => exact ⟨nofun, fun h => nomatch h.2⟩

/-- An operation that leaves its part of a program where it fails leaves the program. -/
lemma eq_of_settleOr {part : Program → σ} {put : Program → σ → Program}
    {x : σ → Except Trap (σ × α)} (same : put p (part p) = p)
    (h : onPart part put (fun s => settleOr s (x s)) p = .error trap q) : q = p := by
  obtain ⟨s, hs, rfl⟩ := onPart_eq_error.mp h
  cases hx : x (part p) with
  | ok r =>
    rw [hx] at hs
    cases hs
  | error t =>
    rw [hx] at hs
    cases hs
    exact same

namespace Step

/-- One write after the other comes to what the operation does. -/
lemma run_eq (reachable : p.arena.Reachable) (st : Step) : st.run p = st.outcome p := by
  unfold run outcome
  cases st with
  | addSectionTo s g => exact onPart_congr enter_eq
  | assignGroup i g => exact onPart_congr assign_eq
  | mergeGroups into source => exact onPart_congr (merge_eq reachable.membersExist)
  | acquire i key => exact onPart_congr acquire_eq
  | replaceLockset i lockset => exact onPart_congr replaceLockset_eq
  | addAlias key n => exact onPart_congr addAlias_eq
  | addSite caller => exact onPart_congr addSite_eq
  | addEdge i target kind => exact onPart_congr addEdge_eq
  | addCall caller target => exact onPart_congr addCall_eq

/-- Only two steps have a residue: that which adds a section to a group that does not exist, and
that which adds a call of a method that does not exist. -/
lemma residue?_eq_some (h : st.residue? p = some q) :
    (∃ s g, st = addSectionTo s g ∧ p.arena.groups[g]? = none ∧
      q = { p with arena := (p.arena.addSection s).1 }) ∨
    ∃ caller target, st = addCall caller target ∧ caller < p.calls.methods.length ∧
      ¬ target < p.calls.methods.length ∧
      q = { p with calls := { p.calls with sites := p.calls.sites ++ [{ caller }] } } := by
  cases st with
  | addSectionTo s g =>
    rw [residue?] at h
    split at h
    · cases h
    · rename_i out
      cases h
      exact .inl ⟨s, g, rfl, List.getElem?_eq_none (Nat.not_lt.mp out), rfl⟩
  | addCall caller target =>
    rw [residue?] at h
    split at h
    · rename_i hm
      cases h
      exact .inr ⟨caller, target, rfl, hm.1, hm.2, rfl⟩
    · cases h
  | _ => cases h

/-- A step with a residue fails, and leaves it. -/
lemma outcome_of_residue (h : st.residue? p = some q) :
    ∃ cause, st.outcome p = .error (.fault cause) q := by
  unfold outcome
  rcases residue?_eq_some h with ⟨s, g, rfl, missing, rfl⟩ | ⟨caller, target, rfl, there, out, rfl⟩
  · refine ⟨.unknownGroup g, onPart_eq_error.mpr ⟨(p.arena.addSection s).1, ?_, rfl⟩⟩
    rw [Arena.addSectionTo_of_missing missing]
    rfl
  · refine ⟨.model (.unknownMethodId target), onPart_eq_error.mpr
      ⟨{ p.calls with sites := p.calls.sites ++ [{ caller }] }, ?_, rfl⟩⟩
    rw [CallGraph.addCall_of_not_lt there out]
    rfl

/-- A residue has one section or one call site more. -/
lemma residue_ne (h : st.residue? p = some q) : q ≠ p := by
  rcases residue?_eq_some h with ⟨s, g, rfl, _, rfl⟩ | ⟨caller, target, rfl, _, _, rfl⟩
  · intro same
    have sections := congrArg (·.arena.sections.length) same
    simp [Arena.addSection] at sections
  · intro same
    have sites := congrArg (·.calls.sites.length) same
    simp at sites

/-- A step without a residue leaves the program as it is where it fails. -/
lemma eq_of_error (h : st.residue? p = none) (failed : st.outcome p = .error trap q) : q = p := by
  unfold outcome at failed
  cases st with
  | addSectionTo s g =>
    obtain ⟨a, ha, rfl⟩ := onPart_eq_error.mp failed
    rw [residue?] at h
    split at h
    · rename_i there
      rw [Arena.addSectionTo_joining (List.getElem?_eq_getElem there)] at ha
      cases ha
    · cases h
  | addCall caller target =>
    obtain ⟨c, hc, rfl⟩ := onPart_eq_error.mp failed
    rw [residue?] at h
    split at h
    · cases h
    · rename_i known
      obtain ⟨rfl, hf⟩ := settle_eq_error.mp hc
      cases hr : (p.calls.addCall caller target).2 with
      | ok i =>
        rw [hr] at hf
        cases hf
      | error f =>
        have found : caller < p.calls.methods.length → target < p.calls.methods.length :=
          fun hc => Decidable.not_not.mp fun ht => known ⟨hc, ht⟩
        have same : (p.calls.addCall caller target).1 = p.calls :=
          CallGraph.addCall_eq_error (Prod.ext rfl hr) found
        rw [same]
  | assignGroup i g => exact eq_of_settleOr rfl failed
  | mergeGroups into source => exact eq_of_settleOr rfl failed
  | acquire i key => exact eq_of_settleOr rfl failed
  | replaceLockset i lockset => exact eq_of_settleOr rfl failed
  | addAlias key n => exact eq_of_settleOr rfl failed
  | addSite caller => exact eq_of_settleOr rfl failed
  | addEdge i target kind => exact eq_of_settleOr rfl failed

/-- What a step does to a program, and what it leaves where it fails. -/
structure Leaves (st : Step) (p : Program) : Prop where
  /-- One write after the other comes to what the operation does, whether it fails or not. -/
  performs : st.run p = st.outcome p
  /-- A step that fails leaves its residue, and the program as it was if it has none. -/
  failed : ∀ t q, st.run p = .error t q → q = (st.residue? p).getD p
  /-- A step with a residue fails, and the residue is another program. -/
  late : ∀ q, st.residue? p = some q → (∃ cause, st.run p = .error (.fault cause) q) ∧ q ≠ p

/-- Whatever led to a program, a step that fails leaves it as it was, but for a section whose group
does not exist and a call site whose target does not. -/
theorem leaves_residue (reachable : p.arena.Reachable) (st : Step) : st.Leaves p := by
  have performs := run_eq reachable st
  constructor
  case performs => exact performs
  case failed =>
    intro t q failed
    rw [performs] at failed
    cases h : st.residue? p with
    | none => exact eq_of_error h failed
    | some r =>
      obtain ⟨cause, left⟩ := outcome_of_residue h
      rw [left] at failed
      cases failed
      rfl
  case late =>
    intro q h
    rw [performs]
    exact ⟨outcome_of_residue h, residue_ne h⟩

/-- A call of a method that does not exist leaves a call site. -/
theorem leaves_residue_addCall :
    Arena.Reachable {} ∧
      (addCall 0 7).Leaves { arena := {}, calls := { methods := ["App.m"] } } ∧
      (addCall 0 7).residue? { arena := {}, calls := { methods := ["App.m"] } } =
        some { arena := {}, calls := { methods := ["App.m"], sites := [{ caller := 0 }] } } :=
  ⟨.empty .empty, leaves_residue (.empty .empty) _, rfl⟩

/-- Adding a section to a group is not atomic, and neither is adding a call. -/
theorem failures_not_atomic :
    (¬ ∀ (p q : Program) (s : Section) (g : GroupId) (cause : Fault), p.arena.Reachable →
      (addSectionTo s g).outcome p = .error (.fault cause) q → q = p) ∧
    ¬ ∀ (p q : Program) (caller target : MethodId) (cause : Fault), p.arena.Reachable →
      (addCall caller target).outcome p = .error (.fault cause) q → q = p := by
  constructor
  · intro atomic
    have same :=
      atomic { arena := {}, calls := {} } _ { name := "s", method := 0, owner := "App" } 5 _
      (.empty .empty) rfl
    exact absurd (congrArg (·.arena.sections.length) same) (by decide)
  · intro atomic
    have same :=
      atomic { arena := {}, calls := { methods := ["App.m"] } } _ 0 7 _ (.empty .empty) rfl
    exact absurd (congrArg (·.calls.sites.length) same) (by decide)

end Step

end Interlock.Checked
