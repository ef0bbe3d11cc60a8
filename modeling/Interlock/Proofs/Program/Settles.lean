import Interlock.Proofs.Arena
import Mathlib.Data.List.Forall2
import Mathlib.Data.List.Induction

/-!
# Computations that a condition decides

`Settles x P R` says of a computation that it goes through exactly if `P` holds, that `R` holds of
its result, and that otherwise it fails with a fault of the model and with no other fault.
Conditions of computations that follow each other are put together by `Settles.bind`, `Settles.mapM`
and `Settles.foldlM`.
-/

namespace Interlock

variable {α β : Type} {x : Except Fault α} {P Q : Prop} {R S : α → Prop}

/-- A computation goes through under a condition and with a certain result, and without the
condition it fails with a fault of the model. -/
inductive Settles (x : Except Fault α) (P : Prop) (R : α → Prop) : Prop
  | ok (a : α) (holds : P) (result : x = .ok a) (found : R a)
  | error (cause : ModelFault) (fails : ¬ P) (result : x = .error (.model cause))

namespace Settles

/-- The condition may be put otherwise, and of the result less may be said. -/
lemma imp (h : Settles x P R) (same : P ↔ Q) (less : ∀ a, P → R a → S a) : Settles x Q S := by
  cases h with
  | ok a holds result found => exact .ok a (same.mp holds) result (less a holds found)
  | error cause fails result => exact .error cause (fun q => fails (same.mpr q)) result

/-- What comes after a computation settles it all, if its condition includes that of the
computation. -/
lemma bind {f : α → Except Fault β} {T : β → Prop} (h : Settles x P R)
    (next : ∀ a, P → R a → Settles (f a) Q T) (need : Q → P) : Settles (x >>= f) Q T := by
  cases h with
  | ok a holds result found =>
    rw [result]
    exact next a holds found
  | error cause fails result =>
    rw [result]
    exact .error cause (fun q => fails (need q)) rfl

/-- A map goes through if every member does. -/
lemma mapM {f : α → Except Fault β} {C : α → Prop} {T : α → β → Prop} {l : List α}
    (each : ∀ x ∈ l, Settles (f x) (C x) (T x)) :
    Settles (l.mapM f) (∀ x ∈ l, C x) (List.Forall₂ T l) := by
  induction l with
  | nil => exact .ok [] nofun rfl .nil
  | cons x rest ih =>
    obtain ⟨hx, hrest⟩ := List.forall_mem_cons.mp each
    rw [List.mapM_cons]
    refine hx.bind ?_ fun all => all x List.mem_cons_self
    intro y holds found
    refine (ih hrest).bind ?_ fun all z hz => all z (List.mem_cons_of_mem x hz)
    intro ys others map
    exact .ok (y :: ys) (List.forall_mem_cons.mpr ⟨holds, others⟩) rfl (.cons found map)

/-- A fold goes through if every step does. The condition is on the members that the fold has come
to, and the description of what it has made of them. -/
lemma foldlM {f : β → α → Except Fault β} {C : List α → Prop} {I : List α → β → Prop} {l : List α}
    {b : β}
    (start : C []) (first : I [] b)
    (step : ∀ before x b, before ++ [x] <+: l → C before → I before b →
      Settles (f b x) (C (before ++ [x])) (I (before ++ [x])))
    (need : ∀ before x, C (before ++ [x]) → C before) :
    Settles (l.foldlM f b) (C l) (I l) := by
  induction l using List.reverseRecOn with
  | nil => exact .ok b start rfl first
  | append_singleton l x ih =>
    rw [List.foldlM_append]
    have earlier := ih fun before y b h => step before y b (h.trans (List.prefix_append l [x]))
    refine earlier.bind ?_ (need l x)
    intro b holds found
    rw [List.foldlM_cons]
    refine (step l x b List.prefix_rfl holds found).bind ?_ id
    intro b holds found
    exact .ok b holds rfl found

/-- Whether a settled computation goes through. -/
lemma exists_ok (h : Settles x P R) : (∃ a, x = .ok a) ↔ P := by
  cases h with
  | ok a holds result _ => exact ⟨fun _ => holds, fun _ => ⟨a, result⟩⟩
  | error cause fails result =>
    constructor
    · rintro ⟨a, ha⟩
      rw [result] at ha
      cases ha
    · exact fun p => absurd p fails

/-- What holds of the result of a settled computation. -/
lemma of_ok (h : Settles x P R) {a : α} (ha : x = .ok a) : P ∧ R a := by
  cases h with
  | ok b holds result found =>
    rw [result] at ha
    cases ha
    exact ⟨holds, found⟩
  | error cause fails result =>
    rw [result] at ha
    cases ha

/-- How a settled computation fails. -/
lemma exists_cause (h : Settles x P R) (fails : ¬ P) : ∃ cause, x = .error (.model cause) := by
  cases h with
  | ok a holds _ _ => exact absurd holds fails
  | error cause _ result => exact ⟨cause, result⟩

end Settles

end Interlock
