import Interlock.Yaml.Scalar.Block
import Interlock.Yaml.Scalar.Plain
import Interlock.Yaml.Scalar.Quoted
import Interlock.Yaml.Tag
/-!
# Tokens of a text

The lexer takes one token after the other and keeps the columns of the blocks that are open. That
something is a key shows only at the colon after it. So where a key may start, the lexer notes the
place, and once the colon comes, the tokens that announce the key are put there. `Lexer.token?` is
the step at a character, and `Lexer.run?` goes on to the end.
-/

namespace Interlock.Yaml

/-- A place where a key may have started. -/
structure Candidate where
  line : Nat
  column : Nat
  /-- Nothing but a key may stand there. -/
  required : Bool
  /-- The number of tokens before it. -/
  position : Nat
deriving DecidableEq, Repr

/-- A key is on one line, and no longer than this. -/
def Candidate.widthLimit : Nat := 1024

/-- At this character it is too late for a colon. -/
def Candidate.isLate (k : Candidate) (c : Cell) : Bool :=
  k.line < c.line || k.column + widthLimit < c.column

/-- What a lexer knows after some tokens. -/
structure Lexer where
  /-- The columns of the open blocks, the innermost first. -/
  indents : List Nat := []
  /-- The last candidate inside the innermost brackets. -/
  key : Option Candidate := none
  /-- The candidates around each open bracket, the innermost first. -/
  outer : List (Option Candidate) := []
  /-- A key may start here. -/
  keyAllowed : Bool := true
  /-- The tokens, latest first. -/
  tokens : List Token := []
deriving DecidableEq, Repr, Inhabited

namespace Lexer

/-- Some brackets are open. -/
def flow (l : Lexer) : Bool := !l.outer.isEmpty

/-- The lexer with one more token. -/
def push (l : Lexer) (t : Token) : Lexer := { l with tokens := t :: l.tokens }

/-- Puts a token where so many are before it. -/
def insert (l : Lexer) (position : Nat) (t : Token) : Lexer :=
  { l with tokens := l.tokens.insertIdx (l.tokens.length - position) t }

/-- Whether a key may start after this. -/
def allowKey (l : Lexer) (allowed : Bool) : Lexer := { l with keyAllowed := allowed }

/-- Gives up the last candidate; none if it had to be a key. -/
def dropKey? (l : Lexer) : Option Lexer :=
  if l.key.any Candidate.required then none else some { l with key := none }

/-- Notes that a key may start at a character. -/
def noteKey? (l : Lexer) (c : Cell) : Option Lexer :=
  if l.keyAllowed then do
    let l ← l.dropKey?
    return { l with
      key := some {
        line := c.line
        column := c.column
        required := !l.flow && l.indents.head? = some c.column
        position := l.tokens.length } }
  else some l

/-- Gives up the candidates for which it is too late; none if one had to be a key. -/
def dropLate? (l : Lexer) (c : Cell) : Option Lexer :=
  if (l.key :: l.outer).any (·.any fun k => k.isLate c && k.required) then none
  else
    let current (k : Option Candidate) : Option Candidate := k.filter (!·.isLate c)
    some { l with key := current l.key, outer := l.outer.map current }

/-- A block at this column would be inside all that are open. -/
def opens (l : Lexer) (column : Nat) : Bool := !l.flow && l.indents.head?.all (· < column)

/-- Opens a block at a column, if none is open there. -/
def openBlock (l : Lexer) (column : Nat) (t : Token) : Lexer :=
  if l.opens column then { l.push t with indents := column :: l.indents } else l

/-- Closes so many blocks. -/
def closeMany (l : Lexer) (count : Nat) : Lexer :=
  if l.flow then l
  else { l with
    indents := l.indents.drop count
    tokens := List.replicate count .blockEnd ++ l.tokens }

/-- Closes the blocks that a text at this column is not in. -/
def closeBlocks (l : Lexer) (column : Nat) : Lexer :=
  l.closeMany (l.indents.takeWhile (column < ·)).length

/-- Closes all blocks. -/
def closeAll (l : Lexer) : Lexer := l.closeMany l.indents.length

/-- After an opening bracket. -/
def openFlow? (l : Lexer) (c : Cell) (t : Token) : Option Lexer := do
  let l ← l.noteKey? c
  return { l.push t with key := none, outer := l.key :: l.outer, keyAllowed := true }

/-- After a closing bracket. -/
def closeFlow? (l : Lexer) (t : Token) : Option Lexer := do
  let l ← l.dropKey?
  let l := match l.outer with
    | [] => l
    | key :: outer => { l with key, outer }
  return (l.allowKey false).push t

/-- After the sign of an item or of a key. -/
def sign? (l : Lexer) (c : Cell) (block t : Token) (allowed : Bool) : Option Lexer :=
  if !l.flow && !l.keyAllowed then none
  else do
    let l ← (l.openBlock c.column block).dropKey?
    return (l.allowKey allowed).push t

/-- The last candidate was a key: it is announced where it starts. -/
def announce (l : Lexer) (k : Candidate) : Lexer :=
  let l := { l.insert k.position .key with key := none, keyAllowed := false }
  if l.opens k.column then
    { l.insert k.position .blockMapping with indents := k.column :: l.indents }
  else l

/-- After the colon before a value. -/
def value? (l : Lexer) (c : Cell) : Option Lexer :=
  match l.key with
  | some k => some ((l.announce k).push .value)
  | none =>
    if !l.flow && !l.keyAllowed then none
    else some (((l.openBlock c.column .blockMapping).allowKey !l.flow).push .value)

/-- After a mark before or after a document. -/
def documentMark? (l : Lexer) (t : Token) : Option Lexer := do
  let l ← l.closeAll.dropKey?
  return (l.allowKey false).push t

/-- At something that may be a key or the start of one. -/
def node? (l : Lexer) (c : Cell) (scanned : Option (Token × List Cell)) :
    Option (Lexer × List Cell) := do
  let l ← l.noteKey? c
  let (t, rest) ← scanned
  return ((l.allowKey false).push t, rest)

/-- At a plain scalar. -/
def plain? (l : Lexer) (c : Cell) (rest : List Cell) : Option (Lexer × List Cell) := do
  let l ← l.noteKey? c
  let s ← scanPlain? l.flow (l.indents.head?.elim 0 (· + 1)) {} (c :: rest)
  return ((l.allowKey s.broken).push (.scalar .plain s.text), s.rest)

/-- At a block scalar. -/
def block? (l : Lexer) (style : Style) (rest : List Cell) : Option (Lexer × List Cell) := do
  let l ← l.dropKey?
  let (text, rest) ← scanBlock? (style = .folded) l.indents.head? rest
  return ((l.allowKey true).push (.scalar style text), rest)

/-- A token with what follows it. -/
def leading {α : Type} (t : α → Token) : α × List Cell → Token × List Cell
  | (a, rest) => (t a, rest)

/-- The lexer after the token that starts at a character, and what follows it. -/
def token? (l : Lexer) (c : Cell) (rest : List Cell) : Option (Lexer × List Cell) :=
  let before (l : Option Lexer) : Option (Lexer × List Cell) := l.map (·, rest)
  if c.column = 0 ∧ c.char = '%' then do
    let l ← l.closeAll.dropKey?
    let (t, rest) ← Directive.scan? rest
    return ((l.allowKey false).push t, rest)
  else if isMark '-' (c :: rest) then (l.documentMark? .documentStart).map (·, rest.drop 2)
  else if isMark '.' (c :: rest) then (l.documentMark? .documentEnd).map (·, rest.drop 2)
  else if c.char = '[' then before (l.openFlow? c .flowSequence)
  else if c.char = '\x7b' then before (l.openFlow? c .flowMapping)
  else if c.char = ']' then before (l.closeFlow? .flowSequenceEnd)
  else if c.char = '\x7d' then before (l.closeFlow? .flowMappingEnd)
  else if c.char = ',' then before (l.dropKey?.map fun l => (l.allowKey true).push .comma)
  else if c.char = '-' ∧ endsWord rest then before (l.sign? c .blockSequence .item true)
  else if c.char = '?' ∧ (l.flow ∨ endsWord rest) then
    before (l.sign? c .blockMapping .key !l.flow)
  else if c.char = ':' ∧ (l.flow ∨ endsWord rest) then before (l.value? c)
  else if c.char = '*' then l.node? c ((scanAnchor? rest).map (leading .reference))
  else if c.char = '&' then l.node? c ((scanAnchor? rest).map (leading .anchor))
  else if c.char = '!' then l.node? c (Tag.scan? l.flow rest)
  else if c.char = '|' ∧ !l.flow then l.block? .literal rest
  else if c.char = '>' ∧ !l.flow then l.block? .folded rest
  else if c.char = '\'' then l.node? c ((scanSingle? {} rest).map (leading (.scalar .singleQuoted)))
  else if c.char = '"' then
    l.node? c ((scanDouble? .text {} rest).map (leading (.scalar .doubleQuoted)))
  else if startsPlain l.flow c rest then l.plain? c rest
  else none

/-- Skips white space and comments, and says whether a key may start after them. Where a key may
start, a tab is no white space. -/
def skip (flow : Bool) : Bool → Bool → List Cell → Bool × List Cell
  | allowed, _, [] => (allowed, [])
  | allowed, comment, c :: rest =>
    if c.lineEnd then skip flow (allowed || !flow) false rest
    else if comment then skip flow allowed true rest
    else if c.char = ' ' || (c.char = '\t' && (flow || !allowed)) ||
        (c.char = '\ufeff' && c.column = 0) then
      skip flow allowed false rest
    else if c.char = '#' then skip flow allowed true rest
    else (allowed, c :: rest)

/-- The tokens, once the text has ended. -/
def finish? (l : Lexer) : Option (List Token) := l.closeAll.dropKey?.map (·.tokens.reverse)

/-- The tokens of what is left of a text. -/
def run? (l : Lexer) (cs : List Cell) : Option (List Token) :=
  match skip l.flow l.keyAllowed false cs with
  | (allowed, []) => (l.allowKey allowed).finish?
  | (allowed, c :: rest) => do
    let l ← (l.allowKey allowed).dropLate? c
    let (l, rest) ← (l.closeBlocks c.column).token? c rest
    if rest.length < cs.length then l.run? rest else none
termination_by cs.length

end Lexer

/-- The tokens of a text; none if it is no YAML. -/
def tokens? (text : List Char) : Option (List Token) := do ({} : Lexer).run? (← cells? text)

end Interlock.Yaml
