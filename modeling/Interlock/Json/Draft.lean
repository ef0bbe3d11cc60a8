import Interlock.Json.Numeral
/-!
# What a text of JSON holds

A text is read once, from left to right, and as far as it goes. What is found is a draft: a value in
which the place where the text stops being JSON is kept. A decoder walks a draft in the order of the
text, so it meets the first problem of the text first, whether the problem is in the text or in the
shape of the value.

Some flaws show only where a value is used, and not where it is skipped: a string may name no
characters, and a numeral may stand for no number.
-/

namespace Interlock.Json

/-- Why a text is no JSON. -/
inductive Halt where
  /-- A character is where it cannot be. -/
  | malformed
  /-- The text ends too early. -/
  | cut
deriving DecidableEq, Repr, Inhabited

/-- A value, as far as a text holds one. -/
inductive Draft where
  | null
  | bool (b : Bool)
  | number (n : Numeral)
  | text (s : String)
  /-- A string whose escapes name no characters. It can be skipped. -/
  | flawed
  /-- The items, and why there is no closing bracket after them. -/
  | array (items : List Draft) (stop : Option Halt)
  /-- The members, and why there is no closing brace after them. A key that is no string is the
  last. -/
  | object (members : List (Draft × Draft)) (stop : Option Halt)
  /-- Something that begins like a word or a numeral and is none. -/
  | garbled (halt : Halt)
  /-- No value at all, or a string without an end: why it cannot be used, and not even skipped. -/
  | broken (used skipped : Halt)
deriving Inhabited

/-- A draft of a whole text, and what is wrong with what follows it. -/
structure Document where
  value : Draft
  trailing : Option Halt
deriving Inhabited

/-- The first of two problems. -/
def firstHalt : Option Halt → Option Halt → Option Halt
  | some h, _ => some h
  | none, other => other

mutual

/-- Why a value that nobody looks at cannot be passed over. -/
def Draft.skip : Draft → Option Halt
  | .null | .bool _ | .number _ | .text _ | .flawed => none
  | .array items stop => firstHalt (skipItems items) stop
  | .object members stop => firstHalt (skipMembers members) stop
  | .garbled h => some h
  | .broken _ h => some h

/-- Why the items of an array cannot be passed over. -/
def skipItems : List Draft → Option Halt
  | [] => none
  | d :: rest => firstHalt d.skip (skipItems rest)

/-- Why the members of an object cannot be passed over. -/
def skipMembers : List (Draft × Draft) → Option Halt
  | [] => none
  | (key, d) :: rest =>
    let keyHalt := match key with
      | .text _ | .flawed => none
      | .broken _ h => some h
      | _ => some .malformed
    firstHalt keyHalt (firstHalt d.skip (skipMembers rest))

end

mutual

/-- Why a value cannot be kept for later. Unlike one that is passed over, it must have characters in
its strings and numbers in its numerals, and it may not be nested deeper than the given depth. -/
def Draft.keep (depth : Nat) : Draft → Option Halt
  | .null | .bool _ | .text _ => none
  | .number n => if n.number?.isSome then none else some .malformed
  | .flawed => some .malformed
  | .array items stop =>
    match depth with
    | 0 => some .malformed
    | d + 1 => firstHalt (keepItems d items) stop
  | .object members stop =>
    match depth with
    | 0 => some .malformed
    | d + 1 => firstHalt (keepMembers d members) stop
  | .garbled h => some h
  | .broken h _ => some h

/-- Why the items of an array cannot be kept for later. -/
def keepItems (depth : Nat) : List Draft → Option Halt
  | [] => none
  | d :: rest => firstHalt (d.keep depth) (keepItems depth rest)

/-- Why the members of an object cannot be kept for later. -/
def keepMembers (depth : Nat) : List (Draft × Draft) → Option Halt
  | [] => none
  | (key, d) :: rest =>
    let keyHalt := match key with
      | .text _ => none
      | .broken h _ => some h
      | _ => some .malformed
    firstHalt keyHalt (firstHalt (d.keep depth) (keepMembers depth rest))

end

end Interlock.Json
