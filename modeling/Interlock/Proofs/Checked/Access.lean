import Interlock.Proofs.Construction
import Interlock.Proofs.LockOrder.Upkeep

/-!
# Checked computations

The definitions of an analysis leave out what cannot go wrong: they pass over a section that does
not exist, and read a list only where it has a member. A checked computation leaves nothing out. It
stops with a `Trap` where a look-up fails, where an index is out of range and where a counter would
go below zero. One that changes an arena is an `Edit`, which hands over the arena as it is also
where it stops.

Whatever a checked computation does to the members of a list goes through if each of its steps does
(`mapM_ok`, `filterM_ok`, `anyM_ok`, `findM?_ok`, `foldlM_judge`, `foldlM_edit`, `forM_edit`).
-/

namespace Interlock.Checked

/-- Why a checked computation stops. -/
inductive Trap where
  /-- A look-up of a lock, a section or a group fails. -/
  | fault (cause : Fault)
  /-- A section takes a lock and is in no group. -/
  | ungrouped (region : String)
  | outOfRange (index size : Nat)
  /-- A lock is in no component. -/
  | unplaced (lock : LockNum)
  /-- A counter would go below zero. -/
  | underflow
  /-- A loop goes on after as many rounds as there are things to treat. -/
  | unfinished
deriving DecidableEq, Repr

/-- A checked computation that changes an arena. -/
abbrev Edit := EStateM Trap Arena

variable {α β ε σ : Type}

/-- A look-up in an arena. -/
def look (x : Except Fault α) : Except Trap α := x.mapError .fault

/-- The member of a list at a position. -/
def item (l : List α) (i : Nat) : Except Trap α :=
  match l[i]? with
  | some x => .ok x
  | none => .error (.outOfRange i l.length)

/-- A list with another member at a position. -/
def setItem (l : List α) (i : Nat) (x : α) : Except Trap (List α) :=
  if i < l.length then .ok (l.set i x) else .error (.outOfRange i l.length)

/-- Reads the arena. -/
def read (f : Arena → Except Trap α) : Edit α := fun a =>
  match f a with
  | .ok x => .ok x a
  | .error t => .error t a

/-- Looks something up in the arena. -/
def ask (f : Arena → Except Fault α) : Edit α := read fun a => look (f a)

/-- Changes the arena by an operation that may fail, and leaves it where the operation fails. -/
def apply (f : Arena → Except Fault (Arena × α)) : Edit α := fun a =>
  match f a with
  | .ok (b, x) => .ok x b
  | .error f => .error (.fault f) a

/-- Changes a section that is taken to exist. -/
def editSection (i : SectionId) (f : Section → Section) : Edit Unit := fun a =>
  if i < a.sections.length then .ok () (a.modifySection i f)
  else .error (.outOfRange i a.sections.length) a

/-- Changes a group that is taken to exist. -/
def editGroup (g : GroupId) (f : Group → Group) : Edit Unit := fun a =>
  if g < a.groups.length then .ok () (a.modifyGroup g f)
  else .error (.outOfRange g a.groups.length) a

/-- A checked computation that may stop at a conflict. -/
abbrev Scan (σ : Type) := ExceptT σ (Except Trap)

/-- A check inside a scan. -/
def check (x : Except Trap α) : Scan σ α := ExceptT.lift x

/-- A judgement that needs no check. -/
def judge (x : Except σ α) : Scan σ α := ExceptT.mk (.ok x)

/-- The conflict that a search ends with. -/
def conflict? : Status α → Option α
  | .deadlockReported c => some c
  | .didNotConverge _ c => c
  | .acyclic | .repaired _ => none

/-- An outcome with its conflict put into other words. -/
def mapStatus (f : α → Except Trap β) : Status α → Except Trap (Status β)
  | .acyclic => return .acyclic
  | .deadlockReported c => return .deadlockReported (← f c)
  | .repaired n => return .repaired n
  | .didNotConverge n none => return .didNotConverge n none
  | .didNotConverge n (some c) => return .didNotConverge n (some (← f c))

lemma look_ok {x : Except Fault α} {a : α} (h : x = .ok a) : look x = .ok a := by
  rw [h]
  rfl

lemma item_ok {l : List α} {i : Nat} {x : α} (h : l[i]? = some x) : item l i = .ok x := by
  rw [item, h]

lemma setItem_ok {l : List α} {i : Nat} {x : α} (h : i < l.length) :
    setItem l i x = .ok (l.set i x) :=
  if_pos h

lemma bind_ok {x : Except ε α} {f : α → Except ε β} {a : α} (h : x = .ok a) : x >>= f = f a := by
  rw [h]
  rfl

lemma bind_edit {x : EStateM ε σ α} {f : α → EStateM ε σ β} {a b : σ} {v : α} (h : x a = .ok v b) :
    (x >>= f) a = f v b := by
  show EStateM.bind x f a = _
  rw [EStateM.bind, h]

lemma bind_edit_error {x : EStateM ε σ α} {f : α → EStateM ε σ β} {a b : σ} {e : ε}
    (h : x a = .error e b) : (x >>= f) a = .error e b := by
  show EStateM.bind x f a = _
  rw [EStateM.bind, h]

lemma read_ok {f : Arena → Except Trap α} {a : Arena} {v : α} (h : f a = .ok v) :
    read f a = .ok v a := by
  rw [read, h]

lemma ask_ok {f : Arena → Except Fault α} {a : Arena} {v : α} (h : f a = .ok v) :
    ask f a = .ok v a :=
  read_ok (look_ok h)

lemma apply_ok {f : Arena → Except Fault (Arena × α)} {a b : Arena} {v : α} (h : f a = .ok (b, v)) :
    apply f a = .ok v b := by
  rw [apply, h]

lemma mapStatus_ok {f : α → Except Trap β} {g : α → β} {s : Status α}
    (h : ∀ c, conflict? s = some c → f c = .ok (g c)) : mapStatus f s = .ok (s.map g) := by
  match s with
  | .acyclic => rfl
  | .deadlockReported c => rw [mapStatus, bind_ok (h c rfl)]; rfl
  | .repaired n => rfl
  | .didNotConverge n none => rfl
  | .didNotConverge n (some c) => rw [mapStatus, bind_ok (h c rfl)]; rfl

lemma bind_check {x : Except Trap α} {f : α → Scan σ β} {v : α} (h : x = .ok v) :
    check x >>= f = f v := by
  rw [h]
  rfl

lemma bind_judge {x : Except σ α} {f : α → Except σ β} :
    (judge x >>= fun v => judge (f v)) = judge (x >>= f) := by
  cases x <;> rfl

section Lists

variable {l : List α} {f : α → Except ε β} {g : α → β}

lemma mapM_ok (h : ∀ x ∈ l, f x = .ok (g x)) : l.mapM f = .ok (l.map g) := by
  induction l with
  | nil => rfl
  | cons x rest ih =>
    obtain ⟨hx, hrest⟩ := List.forall_mem_cons.mp h
    rw [List.mapM_cons, bind_ok hx, bind_ok (ih hrest)]
    rfl

lemma filterM_ok {f : α → Except ε Bool} {p : α → Bool} (h : ∀ x ∈ l, f x = .ok (p x)) :
    l.filterM f = .ok (l.filter p) :=
  filterM_eq_ok.mpr ⟨p, h, rfl⟩

lemma anyM_ok {f : α → Except ε Bool} {p : α → Bool} (h : ∀ x ∈ l, f x = .ok (p x)) :
    l.anyM f = .ok (l.any p) := by
  induction l with
  | nil => rfl
  | cons x rest ih =>
    obtain ⟨hx, hrest⟩ := List.forall_mem_cons.mp h
    refine (bind_ok hx).trans ?_
    cases hp : p x with
    | true => simp [hp]; rfl
    | false => simpa [hp] using ih hrest

lemma findM?_ok {f : α → Except ε Bool} {p : α → Bool}
    (h : ∀ x ∈ l, f x = .ok (p x)) : l.findM? f = .ok (l.find? p) := by
  induction l with
  | nil => rfl
  | cons x rest ih =>
    obtain ⟨hx, hrest⟩ := List.forall_mem_cons.mp h
    refine (bind_ok hx).trans ?_
    cases hp : p x with
    | true => simp [hp]; rfl
    | false => simpa [hp] using ih hrest

end Lists

section Steps

variable {l : List α}

/-- A scan of a list is a judgement if each of its steps is, from wherever an invariant holds. -/
lemma foldlM_judge {I : β → Prop} {f : β → α → Scan σ β} {g : β → α → Except σ β} {b : β}
    (start : I b) (step : ∀ b, I b → ∀ x ∈ l, f b x = judge (g b x))
    (keep : ∀ b, I b → ∀ x ∈ l, ∀ b', g b x = .ok b' → I b') :
    l.foldlM f b = judge (l.foldlM g b) := by
  induction l generalizing b with
  | nil => rfl
  | cons x rest ih =>
    rw [List.foldlM_cons, List.foldlM_cons, step b start x List.mem_cons_self]
    cases hx : g b x with
    | error e => rfl
    | ok b' =>
      refine ih (keep b start x List.mem_cons_self b' hx) ?_ ?_
      · exact fun b hb y hy => step b hb y (List.mem_cons_of_mem x hy)
      · exact fun b hb y hy => keep b hb y (List.mem_cons_of_mem x hy)

/-- What each step of a fold keeps, the fold keeps. -/
lemma foldlM_keeps {I : β → Prop} {g : β → α → Except σ β} {b b' : β} (start : I b)
    (keep : ∀ b, I b → ∀ x ∈ l, ∀ b', g b x = .ok b' → I b')
    (h : l.foldlM g b = .ok b') : I b' := by
  induction l generalizing b with
  | nil =>
    cases h
    exact start
  | cons x rest ih =>
    rw [List.foldlM_cons] at h
    obtain ⟨b1, hx, h⟩ := bind_eq_ok.mp h
    exact ih (keep b start x List.mem_cons_self b1 hx)
      (fun b hb y hy => keep b hb y (List.mem_cons_of_mem x hy)) h

/-- Edits of a list's members go through if each does, from wherever an invariant holds. -/
lemma foldlM_edit {v : σ → β} {w : σ → Arena} {I : σ → Prop} {f : β → α → Edit β}
    {g : σ → α → σ} {s : σ} (start : I s)
    (step : ∀ s, I s → ∀ x ∈ l, f (v s) x (w s) = .ok (v (g s x)) (w (g s x)) ∧
      I (g s x)) :
    l.foldlM f (v s) (w s) = .ok (v (l.foldl g s)) (w (l.foldl g s)) := by
  induction l generalizing s with
  | nil => rfl
  | cons x rest ih =>
    obtain ⟨hx, hI⟩ := step s start x List.mem_cons_self
    rw [List.foldlM_cons, bind_edit hx]
    exact ih hI fun s hs y hy => step s hs y (List.mem_cons_of_mem x hy)

/-- Edits without a result. -/
lemma forM_edit {I : Arena → Prop} {f : α → Edit Unit} {g : Arena → α → Arena} {a : Arena}
    (start : I a) (step : ∀ a, I a → ∀ x ∈ l, f x a = .ok () (g a x) ∧ I (g a x)) :
    l.forM f a = .ok () (l.foldl g a) := by
  induction l generalizing a with
  | nil => rfl
  | cons x rest ih =>
    obtain ⟨hx, hI⟩ := step a start x List.mem_cons_self
    refine (bind_edit hx).trans ?_
    exact ih hI fun a ha y hy => step a ha y (List.mem_cons_of_mem x hy)

end Steps

/-! ## Look-ups that go through -/

/-- Makes the targets of all sections known. -/
def ensureAll (oracle : Oracle) : Edit Unit := do
  let ids ← read fun a => .ok a.sectionIds
  ids.forM fun t => do let _ ← apply (·.ensureTargets oracle t)

variable {a : Arena} {t outer inner : SectionId} {oracle : Oracle}

lemma exists_of_grouped (h : t ∈ a.groupedSections) : ∃ s, a.section? t = .ok s := by
  obtain ⟨s, hs, _⟩ := Arena.mem_groupedSections.mp h
  exact ⟨s, Arena.section?_eq_ok.mpr hs⟩

lemma enters_ok {s u : Section} (hs : a.section? outer = .ok s) (hu : a.section? inner = .ok u) :
    a.enters outer inner = .ok (a.mayEnter outer inner) := by
  rw [Arena.enters, bind_ok hu, bind_ok hs, Arena.mayEnter, Arena.section?_eq_ok.mp hs,
    Arena.section?_eq_ok.mp hu]
  rfl

lemma exists_modifySection {i : SectionId} {f : Section → Section} (h : ∃ s, a.section? t = .ok s) :
    ∃ s, (a.modifySection i f).section? t = .ok s := by
  obtain ⟨s, hs⟩ := h
  refine ⟨if i = t then f s else s, Arena.section?_eq_ok.mpr ?_⟩
  rw [Arena.sections_modifySection, Arena.section?_eq_ok.mp hs]
  rfl

lemma modifySection_const {f : Section → Section} {s : Section} (hs : a.sections[t]? = some s) :
    a.modifySection t (fun _ => f s) = a.modifySection t f := by
  have sections : (a.modifySection t fun _ => f s).sections = (a.modifySection t f).sections := by
    apply List.ext_getElem?
    intro i
    rw [Arena.sections_modifySection, Arena.sections_modifySection]
    by_cases e : t = i
    · subst e
      simp [hs]
    · simp [e]
  exact congrArg (Arena.mk · _ _) sections

lemma foldl_withTargets : a.sectionIds.foldl
    (fun a t => a.modifySection t (·.withTargets oracle)) a = a.ensureAllTargets oracle := by
  have sections :
      (a.sectionIds.foldl (fun a t => a.modifySection t (·.withTargets oracle)) a).sections =
        (a.ensureAllTargets oracle).sections := by
    apply List.ext_getElem?
    intro i
    rw [Arena.sections_modifyAll Section.withTargets_withTargets, Arena.sections_ensureAllTargets]
    cases hs : a.sections[i]? with
    | none => rfl
    | some s =>
      have hi : i ∈ a.sectionIds := List.mem_range.mpr (List.getElem?_eq_some_iff.mp hs).1
      rw [Option.map_some, Option.map_some, if_pos hi]
  exact (congrArg (Arena.mk · _ _) sections).trans
    (congrArg₂ (Arena.mk _) Arena.groups_modifyAll Arena.locks_modifyAll)

lemma ensureAll_ok : ensureAll oracle a = .ok () (a.ensureAllTargets oracle) := by
  have step : ∀ b : Arena, b.sections.length = a.sections.length → ∀ t ∈ a.sectionIds,
      (do let _ ← apply (·.ensureTargets oracle t) : Edit Unit) b =
          .ok () (b.modifySection t (·.withTargets oracle)) ∧
        (b.modifySection t (·.withTargets oracle)).sections.length = a.sections.length := by
    intro b size t ht
    have inside : t < b.sections.length := size.symm ▸ List.mem_range.mp ht
    have hs := List.getElem?_eq_getElem inside
    have found : b.ensureTargets oracle t =
        .ok (b.modifySection t fun _ => b.sections[t].withTargets oracle,
          (b.sections[t].withTargets oracle).targets.getD .empty) := by
      rw [Arena.ensureTargets, bind_ok (Arena.section?_eq_ok.mpr hs)]
      rfl
    refine ⟨?_, (List.length_modify ..).trans size⟩
    rw [bind_edit (apply_ok found), modifySection_const hs]
    rfl
  unfold ensureAll
  rw [bind_edit (read_ok (v := a.sectionIds) rfl),
    forM_edit (I := fun b => b.sections.length = a.sections.length) rfl step, foldl_withTargets]

end Interlock.Checked
