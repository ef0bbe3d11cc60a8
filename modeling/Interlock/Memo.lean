/-!
# Tables of functions

A function that is asked again and again for the same few arguments is tabulated there first. The
table changes nothing but the work (`ofTable_tabulate`).
-/

namespace Interlock.Memo

variable {α β : Type} [DecidableEq α]

omit [DecidableEq α] in
/-- The values of a function at some arguments. -/
def tabulate (f : α → β) (args : List α) : List (α × β) := args.map fun a => (a, f a)

/-- The value of a function, taken out of a table where it is there. -/
def ofTable (f : α → β) (table : List (α × β)) (a : α) : β :=
  match table.lookup a with
  | some b => b
  | none => f a

theorem eq_of_lookup_tabulate {f : α → β} {args : List α} {a : α} {b : β}
    (h : (tabulate f args).lookup a = some b) : b = f a := by
  induction args with
  | nil => simp [tabulate] at h
  | cons c rest ih =>
    rw [tabulate, List.map_cons, List.lookup_cons] at h
    split at h
    · rename_i e
      rw [eq_of_beq e]
      exact (Option.some.inj h).symm
    · exact ih h

/-- A function out of its own table is the function. -/
@[simp] theorem ofTable_tabulate (f : α → β) (args : List α) : ofTable f (tabulate f args) = f := by
  funext a
  unfold ofTable
  split
  · rename_i h
    exact eq_of_lookup_tabulate h
  · rfl

end Interlock.Memo
