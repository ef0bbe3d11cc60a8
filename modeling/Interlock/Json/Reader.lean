import Interlock.Json.Lexer
/-!
# Drafts of tokens

The reader takes one token at a time and keeps the arrays and objects that are open on a stack.
Where the tokens do not go on as they should, what is open is closed as it stands, with the reason.
-/

namespace Interlock.Json

/-- An array or object that waits for a value. What it holds is given latest first. -/
inductive Frame where
  | item (before : List Draft)
  | member (before : List (Draft × Draft)) (key : Draft)

/-- What the reader waits for. -/
inductive Expect where
  | value
  /-- The first item of an array, or its end. -/
  | firstItem
  /-- A comma in an array, or its end. -/
  | nextItem (before : List Draft)
  /-- The first key of an object, or its end. -/
  | firstKey
  /-- A key after a comma. -/
  | key (before : List (Draft × Draft))
  | colon (before : List (Draft × Draft)) (key : Draft)
  /-- A comma in an object, or its end. -/
  | nextMember (before : List (Draft × Draft))
  /-- Nothing more: the value of the text is complete. -/
  | done (d : Draft)

namespace Draft

/-- Nothing that could be a value. -/
def nothing (h : Halt) : Draft := .broken h h

/-- Closes everything that is open around a value that is the last. -/
def close : List Frame → Draft → Draft
  | [], d => d
  | .item before :: outer, d => close outer (.array (d :: before).reverse (some .malformed))
  | .member before key :: outer, d =>
    close outer (.object ((key, d) :: before).reverse (some .malformed))

/-- Closes everything that is open around an array that goes no further. -/
def closeArray (outer : List Frame) (before : List Draft) (h : Halt) : Document :=
  ⟨close outer (.array before.reverse (some h)), none⟩

/-- Closes everything that is open around an object that goes no further. -/
def closeObject (outer : List Frame) (before : List (Draft × Draft)) (h : Halt) : Document :=
  ⟨close outer (.object before.reverse (some h)), none⟩

/-- Closes everything that is open around an object whose last key has no value. -/
def closeKey (outer : List Frame) (before : List (Draft × Draft)) (key : Draft) (h : Halt) :
    Document :=
  closeObject outer ((key, nothing h) :: before) h

/-- What is expected after a complete value. -/
def after (d : Draft) : List Frame → Expect × List Frame
  | [] => (.done d, [])
  | .item before :: outer => (.nextItem (d :: before), outer)
  | .member before key :: outer => (.nextMember ((key, d) :: before), outer)

/-- No token follows the value; the text goes no further. -/
def stops : Draft → Bool
  | .garbled _ | .broken .. => true
  | _ => false

/-- What a token in the place of a key is taken for. A key that is no string ends the object. -/
def keyOf : Token → Draft
  | .scalar d => d
  | .openArray => .array [] (some .malformed)
  | .openObject => .object [] (some .malformed)
  | .closeArray | .closeObject | .comma | .colon => nothing .malformed

/-- The token is a string, so it can be a key. -/
def isKey : Token → Bool
  | .scalar (.text _) | .scalar .flawed => true
  | _ => false

/-- The draft of the tokens, for what is expected and what is open. -/
def read : List Token → Expect → List Frame → Document
  | [], .value, stack => ⟨close stack (nothing .cut), none⟩
  | [], .firstItem, stack => closeArray stack [] .cut
  | [], .nextItem before, stack => closeArray stack before .cut
  | [], .firstKey, stack => closeObject stack [] .cut
  | [], .key before, stack => closeKey stack before (nothing .cut) .cut
  | [], .colon before key, stack => closeKey stack before key .cut
  | [], .nextMember before, stack => closeObject stack before .cut
  | [], .done d, _ => ⟨d, none⟩
  | t :: rest, .value, stack =>
    match t with
    | .scalar d =>
      if d.stops then ⟨close stack d, none⟩ else read rest (d.after stack).1 (d.after stack).2
    | .openArray => read rest .firstItem stack
    | .openObject => read rest .firstKey stack
    | .closeArray | .closeObject | .comma | .colon => ⟨close stack (nothing .malformed), none⟩
  | t :: rest, .firstItem, stack =>
    match t with
    | .closeArray =>
      let d := Draft.array [] none
      read rest (d.after stack).1 (d.after stack).2
    | .scalar d =>
      let inner := .item [] :: stack
      if d.stops then ⟨close inner d, none⟩ else read rest (d.after inner).1 (d.after inner).2
    | .openArray => read rest .firstItem (.item [] :: stack)
    | .openObject => read rest .firstKey (.item [] :: stack)
    | .closeObject | .comma | .colon => ⟨close (.item [] :: stack) (nothing .malformed), none⟩
  | t :: rest, .nextItem before, stack =>
    match t with
    | .comma => read rest .value (.item before :: stack)
    | .closeArray =>
      let d := Draft.array before.reverse none
      read rest (d.after stack).1 (d.after stack).2
    | .scalar _ | .openArray | .openObject | .closeObject | .colon =>
      closeArray stack before .malformed
  | t :: rest, .firstKey, stack =>
    match t with
    | .closeObject =>
      let d := Draft.object [] none
      read rest (d.after stack).1 (d.after stack).2
    | .scalar _ | .openArray | .openObject | .closeArray | .comma | .colon =>
      if isKey t then read rest (.colon [] (keyOf t)) stack
      else closeKey stack [] (keyOf t) .malformed
  | t :: rest, .key before, stack =>
    if isKey t then read rest (.colon before (keyOf t)) stack
    else closeKey stack before (keyOf t) .malformed
  | t :: rest, .colon before key, stack =>
    match t with
    | .colon => read rest .value (.member before key :: stack)
    | .scalar _ | .openArray | .openObject | .closeArray | .closeObject | .comma =>
      closeKey stack before key .malformed
  | t :: rest, .nextMember before, stack =>
    match t with
    | .comma => read rest (.key before) stack
    | .closeObject =>
      let d := Draft.object before.reverse none
      read rest (d.after stack).1 (d.after stack).2
    | .scalar _ | .openArray | .openObject | .closeArray | .colon =>
      closeObject stack before .malformed
  | _ :: _, .done d, _ => ⟨d, some .malformed⟩

end Draft

/-- The draft of a text. -/
def Document.ofText (s : String) : Document := Draft.read (tokens s.toList) .value []

end Interlock.Json
