import Interlock.Json.Draft
import Interlock.Text.Hex
/-!
# Tokens of JSON

The lexer is a machine that takes one character at a time: in each mode a character gives tokens and
the next mode. So reading a text is one pass over its characters, and what a piece of text yields
depends on the rest of the text only through the mode that it leaves.
-/

namespace Interlock.Json

/-- A piece of a text. -/
inductive Token where
  | openArray
  | closeArray
  | openObject
  | closeObject
  | comma
  | colon
  /-- A value that is no array and no object. After a garbled or broken one there are no tokens. -/
  | scalar (d : Draft)
deriving Inhabited

/-- Which part of a numeral was read last. -/
inductive NumeralPart where
  | sign
  /-- A whole part of zero, which no digit may follow. -/
  | zero
  | whole
  | point
  | fraction
  | mark
  | markSign
  | exponent
deriving DecidableEq, Repr

/-- A numeral that is being read, with its digits latest first. -/
structure OpenNumeral where
  part : NumeralPart
  negative : Bool := false
  whole : List Nat := []
  fraction : List Nat := []
  exponentNegative : Bool := false
  exponent : List Nat := []
deriving Repr

namespace OpenNumeral

/-- The value of a decimal digit. -/
def digit? (c : Char) : Option Nat := if c.isDigit then some (c.toNat - '0'.toNat) else none

/-- The numeral after one more character; none where the character does not belong to it. -/
def extend? (n : OpenNumeral) (c : Char) : Option OpenNumeral :=
  match n.part, digit? c with
  | .sign, some 0 => some { n with part := .zero, whole := [0] }
  | .sign, some d => some { n with part := .whole, whole := [d] }
  | .whole, some d => some { n with whole := d :: n.whole }
  | .point, some d | .fraction, some d =>
    some { n with part := .fraction, fraction := d :: n.fraction }
  | .mark, some d | .markSign, some d | .exponent, some d =>
    some { n with part := .exponent, exponent := d :: n.exponent }
  | .zero, some _ | .sign, none | .point, none | .markSign, none | .exponent, none => none
  | .zero, none | .whole, none =>
    if c = '.' then some { n with part := .point }
    else if c = 'e' ∨ c = 'E' then some { n with part := .mark }
    else none
  | .fraction, none => if c = 'e' ∨ c = 'E' then some { n with part := .mark } else none
  | .mark, none =>
    if c = '+' then some { n with part := .markSign }
    else if c = '-' then some { n with part := .markSign, exponentNegative := true }
    else none

/-- The numeral, if it may end here. -/
def close? (n : OpenNumeral) : Option Numeral :=
  let numeral : Numeral := { negative := n.negative, whole := n.whole.reverse }
  match n.part with
  | .zero | .whole => some numeral
  | .fraction => some { numeral with fraction := some n.fraction.reverse }
  | .exponent => some { numeral with
      fraction := if n.fraction.isEmpty then none else some n.fraction.reverse
      exponent := some (n.exponentNegative, n.exponent.reverse) }
  | .sign | .point | .mark | .markSign => none

end OpenNumeral

/-- Where in a string a reader is. -/
inductive TextPart where
  | plain
  /-- After a backslash. A high surrogate may wait for its partner. -/
  | escape (high : Option Nat)
  /-- Among the four digits of an escape by number, with those read so far, latest first. -/
  | digits (high : Option Nat) (seen : List Char)
  /-- After a high surrogate. -/
  | surrogate (high : Nat)
deriving DecidableEq, Repr

/-- A string that is being read, with its characters latest first. -/
structure OpenText where
  chars : List Char := []
  part : TextPart := .plain
  /-- An escape named no character. -/
  flawed : Bool := false
deriving Repr

/-- What the lexer is doing. -/
inductive LexMode where
  | between
  /-- In a word, with the letters still to come. -/
  | word (left : List Char) (d : Draft)
  | numeral (n : OpenNumeral)
  | text (t : OpenText)
  /-- The text is no JSON. -/
  | halted

namespace LexMode

/-- The lexer stops at something that is no token. -/
def stopAt (d : Draft) : List Token × LexMode := ([.scalar d], halted)

/-- A character between tokens. -/
def stepBetween (c : Char) : List Token × LexMode :=
  if c = ' ' ∨ c = '\n' ∨ c = '\t' ∨ c = '\r' then ([], between)
  else if c = '[' then ([.openArray], between)
  else if c = ']' then ([.closeArray], between)
  else if c = '{' then ([.openObject], between)
  else if c = '}' then ([.closeObject], between)
  else if c = ',' then ([.comma], between)
  else if c = ':' then ([.colon], between)
  else if c = '"' then ([], text {})
  else if c = 'n' then ([], word ['u', 'l', 'l'] .null)
  else if c = 't' then ([], word ['r', 'u', 'e'] (.bool true))
  else if c = 'f' then ([], word ['a', 'l', 's', 'e'] (.bool false))
  else if c = '-' then ([], numeral { part := .sign, negative := true })
  else match OpenNumeral.extend? { part := .sign } c with
    | some n => ([], numeral n)
    | none => stopAt (.garbled .malformed)

/-- The value of four hexadecimal digits, given latest first. -/
def codeUnit? (seen : List Char) : Option Nat :=
  if seen.length = 4 then
    seen.reverse.foldl (fun n c => do return (← n) * 16 + (← Text.hexValue? c)) (some 0)
  else none

/-- The character of a letter after a backslash. -/
def letterEscape? (c : Char) : Option Char :=
  if c = '"' ∨ c = '\\' ∨ c = '/' then some c
  else if c = 'b' then some '\x08'
  else if c = 'f' then some '\x0c'
  else if c = 'n' then some '\n'
  else if c = 'r' then some '\r'
  else if c = 't' then some '\t'
  else none

/-- A string that goes no further: a flaw in it comes first where it is used. -/
def stopText (t : OpenText) (h : Halt) : List Token × LexMode :=
  stopAt (.broken (if t.flawed then .malformed else h) h)

/-- A string with one more code unit, which may need a partner or be one. -/
def pushUnit (t : OpenText) (high : Option Nat) (unit : Nat) : OpenText :=
  let t := { t with part := .plain }
  let leads := 0xd800 ≤ unit && unit ≤ 0xdbff
  let trails := 0xdc00 ≤ unit && unit ≤ 0xdfff
  if t.flawed then t
  else match high with
    | some h =>
      if trails then
        { t with chars := Char.ofNat (0x10000 + (h - 0xd800) * 0x400 + (unit - 0xdc00)) :: t.chars }
      else { t with flawed := true }
    | none =>
      if leads then { t with part := .surrogate unit }
      else if trails then { t with flawed := true }
      else { t with chars := Char.ofNat unit :: t.chars }

/-- A character of a string outside escapes. -/
def stepPlain (t : OpenText) (c : Char) : List Token × LexMode :=
  if c = '"' then
    ([.scalar (if t.flawed then .flawed else .text (String.ofList t.chars.reverse))], between)
  else if c = '\\' then ([], text { t with part := .escape none })
  else if c.toNat < 32 then stopText t .malformed
  else ([], text { t with chars := c :: t.chars })

/-- A character after a backslash. -/
def stepEscape (t : OpenText) (high : Option Nat) (c : Char) : List Token × LexMode :=
  if c = 'u' then ([], text { t with part := .digits high [] })
  else
    let t := if high.isSome then { t with flawed := true } else t
    match letterEscape? c with
    | some e => ([], text { t with part := .plain, chars := e :: t.chars })
    | none => stopText t .malformed

/-- A character among the digits of an escape by number. Four bytes are taken before they are looked
at. -/
def stepDigits (t : OpenText) (high : Option Nat) (seen : List Char) (c : Char) :
    List Token × LexMode :=
  let seen := c :: seen
  if seen.foldl (fun bytes c => bytes + c.utf8Size) 0 < 4 then
    ([], text { t with part := .digits high seen })
  else match codeUnit? seen with
    | some unit => ([], text (pushUnit t high unit))
    | none => stopText t .malformed

/-- A character inside a string. -/
def stepText (t : OpenText) (c : Char) : List Token × LexMode :=
  match t.part with
  | .plain => stepPlain t c
  | .escape high => stepEscape t high c
  | .digits high seen => stepDigits t high seen c
  | .surrogate high =>
    if c = '\\' then ([], text { t with part := .escape (some high) })
    else stepPlain { t with part := .plain, flawed := true } c

/-- The tokens that a character completes, and what the lexer does next. -/
def step : LexMode → Char → List Token × LexMode
  | between, c => stepBetween c
  | word [] d, c =>
    let (tokens, mode) := stepBetween c
    (.scalar d :: tokens, mode)
  | word (w :: left) d, c => if c = w then ([], word left d) else stopAt (.garbled .malformed)
  | numeral n, c =>
    match n.extend? c with
    | some n => ([], numeral n)
    | none =>
      match n.close? with
      | some closed =>
        if n.part = .zero ∧ c.isDigit then stopAt (.garbled .malformed)
        else
          let (tokens, mode) := stepBetween c
          (.scalar (.number closed) :: tokens, mode)
      | none => stopAt (.garbled .malformed)
  | text t, c => stepText t c
  | halted, _ => ([], halted)

/-- The tokens that the end of the text completes. -/
def finish : LexMode → List Token
  | between | halted => []
  | word [] d => [.scalar d]
  | word (_ :: _) _ => [.scalar (.garbled .cut)]
  | numeral n =>
    match n.close? with
    | some closed => [.scalar (.number closed)]
    | none => [.scalar (.garbled .cut)]
  | text t => (stopText t .cut).1

/-- The tokens of a text. -/
def run : LexMode → List Char → List Token
  | mode, [] => mode.finish
  | mode, c :: rest => (mode.step c).1 ++ run (mode.step c).2 rest

end LexMode

/-- The tokens of a text. -/
def tokens (cs : List Char) : List Token := LexMode.run .between cs

end Interlock.Json
