/-!
# Documents

Settings are kept in documents: texts in a format that a library writes and reads. How a value is
spelled is the library's matter. It is given values to write, and what it makes of a text can be
asked for what is expected there: a truth value, a number, the members of a record. So what a record
is written as and read from is said here for any library (`Document.Library`).
-/

namespace Interlock.Document

/-- A value to be written. -/
inductive Value where
  | null
  | truth (b : Bool)
  | number (n : Nat)
  | text (s : String)
  /-- A value of an enumeration, by its name. -/
  | variant (name : String)
  | texts (items : List String)
  | record (fields : List (String × Value))
deriving Inhabited

/-- The field of a record, if it is set. -/
def field? (name : String) (v : Option Value) : List (String × Value) := (v.map (name, ·)).toList

/-- A library for documents. Each question about a node has no answer where something else
stands. -/
structure Library where
  /-- What stands at a place of a document that has been read. -/
  Node : Type
  /-- Writes a record. -/
  write? : List (String × Value) → Option String
  read? : String → Option Node
  /-- Whether the node is null, where it may be. -/
  isNull? : Node → Option Bool
  truth? : Node → Option Bool
  /-- A number below a limit. -/
  number? : Nat → Node → Option Nat
  text? : Node → Option String
  /-- The name of a value of an enumeration. -/
  variant? : Node → Option String
  items? : Node → Option (List Node)
  members? : Node → Option (List (Node × Node))

namespace Library

variable (lib : Library) {α : Type}

/-- The value of a node, or none if it is null. -/
def optional? (decode : lib.Node → Option α) (n : lib.Node) : Option (Option α) := do
  if ← lib.isNull? n then return none else (decode n).map some

/-- One of the named values. -/
def oneOf? (values : List (String × α)) (n : lib.Node) : Option α :=
  (lib.variant? n).bind fun name => values.lookup name

/-- A list of texts. -/
def texts? (n : lib.Node) : Option (List String) := do (← lib.items? n).mapM lib.text?

/-- Puts the members of a mapping into a record one after the other. Each name may come once, and
`put` gives none for a name or a value that does not belong there. -/
def putMembers? (put : α → String → lib.Node → Option α) :
    List String → α → List (lib.Node × lib.Node) → Option α
  | _, a, [] => some a
  | seen, a, (k, v) :: rest => do
    let name ← lib.text? k
    if name ∈ seen then none else putMembers? put (name :: seen) (← put a name v) rest

/-- The record that a mapping stands for, from one with defaults. -/
def record? (put : α → String → lib.Node → Option α) (start : α) (n : lib.Node) : Option α := do
  lib.putMembers? put [] start (← lib.members? n)

end Library

end Interlock.Document
