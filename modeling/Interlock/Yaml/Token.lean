/-!
# Tokens of YAML

What a text is made of, with the structure that columns give to it made explicit: blocks have a
start and an end, and keys and values are announced.
-/

namespace Interlock.Yaml

/-- How a scalar is written. Only a plain one may stand for something other than text. -/
inductive Style where
  | plain
  | singleQuoted
  | doubleQuoted
  | literal
  | folded
deriving DecidableEq, Repr, Inhabited

/-- A tag, or a part of one. By escapes it may be made of bytes that are no text. -/
inductive Tag where
  | named (text : List Char)
  | garbled
deriving DecidableEq, Repr, Inhabited

/-- Joins the parts of a tag. -/
def Tag.append : Tag → Tag → Tag
  | named a, named b => named (a ++ b)
  | _, _ => garbled

/-- A piece of a text. -/
inductive Token where
  /-- A version that the next document is said to be written in. -/
  | version (major minor : Nat)
  /-- What a handle stands for in the next document. -/
  | handle (name : List Char) (start : Tag)
  | documentStart
  | documentEnd
  | blockSequence
  | blockMapping
  | blockEnd
  | flowSequence
  | flowSequenceEnd
  | flowMapping
  | flowMappingEnd
  /-- The sign before an item of a block. -/
  | item
  /-- The comma between items in brackets. -/
  | comma
  | key
  | value
  | reference (name : List Char)
  | anchor (name : List Char)
  | tag (handle : List Char) (rest : Tag)
  | scalar (style : Style) (text : List Char)
deriving DecidableEq, Repr, Inhabited

end Interlock.Yaml
