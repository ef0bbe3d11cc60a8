import Interlock.Yaml.Place
/-!
# Block scalars

The lines of a block scalar are indented by one number of columns, which its first line of text
gives if no digit does. A literal scalar keeps its line ends. In a folded one a line end between two
lines becomes a space, unless one of the lines starts with a blank; if blank lines follow, it goes.
-/

namespace Interlock.Yaml

/-- What becomes of the line ends after the last text. -/
inductive Chomp where
  /-- They go. -/
  | strip
  /-- One stays. -/
  | clip
  /-- All stay. -/
  | keep
deriving DecidableEq, Repr

/-- Reads a sign for the line ends at the end. -/
def readChomp : List Cell → Option Chomp × List Cell
  | [] => (none, [])
  | c :: rest =>
    if c.char = '+' then (some .keep, rest)
    else if c.char = '-' then (some .strip, rest)
    else (none, c :: rest)

/-- Reads a digit that gives the indentation. Zero is none. -/
def readWidth? : List Cell → Option (Option Nat × List Cell)
  | [] => some (none, [])
  | c :: rest =>
    if c.char.isDigit then
      if c.char = '0' then none else some (some (c.char.toNat - '0'.toNat), rest)
    else some (none, c :: rest)

/-- Reads the sign and the digit before a block scalar, in any order. -/
def readHeader? (cs : List Cell) : Option (Chomp × Option Nat × List Cell) :=
  match readChomp cs with
  | (some chomp, rest) => do
    let (width, rest) ← readWidth? rest
    return (chomp, width, rest)
  | (none, rest) => do
    match ← readWidth? rest with
    | (some width, rest) => return ((readChomp rest).1.getD .clip, some width, (readChomp rest).2)
    | (none, rest) => return (.clip, none, rest)

/-- The widest indentation up to the first line of text, of blank lines too; none at a tab. -/
def widest? (width : Nat) : List Cell → Option Nat
  | [] => some width
  | c :: rest =>
    if c.char = ' ' then widest? width rest
    else if c.char = '\t' then none
    else if c.lineEnd then widest? (max width c.column) rest
    else some (max width c.column)

/-- The line ends since the last line of text. -/
structure LineGap where
  /-- The end of that line. -/
  last : Option Char := none
  /-- The ends of blank lines after it. -/
  blank : List Char := []
  /-- That line starts with a blank. -/
  indented : Bool := false
deriving DecidableEq, Repr, Inhabited

namespace LineGap

/-- What the line ends are before a line of text. -/
def text (g : LineGap) (folded indented : Bool) : List Char :=
  if folded && g.last = some '\n' && !g.indented && !indented then
    if g.blank.isEmpty then [' '] else g.blank
  else g.last.toList ++ g.blank

/-- What the line ends are after the last text. -/
def chomped (g : LineGap) : Chomp → List Char
  | .strip => []
  | .clip => g.last.toList
  | .keep => g.last.toList ++ g.blank

end LineGap

/-- Scans the lines of a block scalar, from inside a line of text or from before one. It ends at a
text that is indented less. -/
def scanLines? (folded : Bool) (chomp : Chomp) (indent : Nat) :
    Bool → LineGap → List Cell → Option (List Char × List Cell)
  | _, g, [] => some (g.chomped chomp, [])
  | true, g, c :: rest =>
    if c.lineEnd then
      scanLines? folded chomp indent false { g with last := some c.char } rest
    else
      (scanLines? folded chomp indent true g rest).map fun (t, r) => (c.char :: t, r)
  | false, g, c :: rest =>
    if c.char = ' ' && c.column < indent then scanLines? folded chomp indent false g rest
    else if c.char = '\t' && c.column < indent then none
    else if c.lineEnd then
      scanLines? folded chomp indent false { g with blank := g.blank ++ [c.char] } rest
    else if c.column = indent then
      (scanLines? folded chomp indent true { indented := c.blank } rest).map fun (t, r) =>
        (g.text folded c.blank ++ c.char :: t, r)
    else some (g.chomped chomp, c :: rest)

/-- Scans a block scalar from after its first sign on. Its parent is indented by `parent`, if there
is one. -/
def scanBlock? (folded : Bool) (parent : Option Nat) (cs : List Cell) :
    Option (List Char × List Cell) := do
  let (chomp, width, rest) ← readHeader? cs
  let rest ← skipLine? rest
  let indent ← match width with
    | some width => some (parent.getD 0 + width)
    | none => (widest? 0 rest).map (max (max (parent.elim 0 (· + 1)) 1))
  scanLines? folded chomp indent false {} rest

end Interlock.Yaml
