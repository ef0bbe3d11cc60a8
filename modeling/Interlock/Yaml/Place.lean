/-!
# Characters and their places

In YAML the place of a character counts: columns say what belongs to what, and a key ends on the
line where it starts. So a text is read as `Cell`s, its characters with line and column, and all
kinds of line ends are made one before, apart from the two separators of Unicode, which a scalar
keeps.
-/

namespace Interlock.Yaml

/-- Characters that end a line. -/
def isBreak (c : Char) : Bool :=
  c = '\n' || c = '\r' || c = '\x85' || c = '\u2028' || c = '\u2029'

/-- Characters that separate words on a line. -/
def isBlank (c : Char) : Bool := c = ' ' || c = '\t'

/-- Characters that may stand in a text: all but the control characters, with three exceptions, and
the two that are no characters. -/
def isAllowed (c : Char) : Bool :=
  c = '\t' || c = '\n' || c = '\r' || c = '\x85' || (' ' ≤ c && c ≤ '~') ||
    ('\u00a0' ≤ c && c ≠ '\ufffe' && c ≠ '\uffff')

/-- Makes each line end a line feed, apart from the separators. -/
def joinLineEnds : List Char → List Char
  | [] => []
  | '\r' :: '\n' :: rest => '\n' :: joinLineEnds rest
  | c :: rest => (if c = '\r' ∨ c = '\x85' then '\n' else c) :: joinLineEnds rest

/-- A character with its line and its column, both from zero. -/
structure Cell where
  char : Char
  line : Nat
  column : Nat
deriving DecidableEq, Repr, Inhabited

/-- The characters with their places, from a place on. -/
def cellsFrom (line column : Nat) : List Char → List Cell
  | [] => []
  | c :: rest =>
    ⟨c, line, column⟩ ::
      if isBreak c then cellsFrom (line + 1) 0 rest else cellsFrom line (column + 1) rest

/-- The cells of a text; none if it has a character that may not stand there. -/
def cells? (text : List Char) : Option (List Cell) :=
  if text.all isAllowed then some (cellsFrom 0 0 (joinLineEnds text)) else none

namespace Cell

/-- The character is a blank. -/
def blank (c : Cell) : Bool := isBlank c.char

/-- The character ends a line. -/
def lineEnd (c : Cell) : Bool := isBreak c.char

/-- The characters of cells. -/
def chars (cs : List Cell) : List Char := cs.map Cell.char

end Cell

/-- A word ends here: a blank, a line end or the end of the text comes next. -/
def endsWord : List Cell → Bool
  | [] => true
  | c :: _ => c.blank || c.lineEnd

/-- A mark of three equal characters at the start of a line, and a word of its own. -/
def isMark (sign : Char) : List Cell → Bool
  | a :: b :: c :: rest =>
    a.column = 0 && a.char = sign && b.char = sign && c.char = sign && endsWord rest
  | _ => false

/-- The mark before a document or after it. -/
def isDocumentMark (cs : List Cell) : Bool := isMark '-' cs || isMark '.' cs

/-- The next character is the given one. -/
def startsWith (sign : Char) : List Cell → Bool
  | [] => false
  | c :: _ => c.char = sign

/-- Skips the blanks. -/
def skipBlanks (cs : List Cell) : List Cell := cs.dropWhile Cell.blank

/-- Skips what is left of a line, if it is blank or a comment; none otherwise. -/
def skipLine? (cs : List Cell) : Option (List Cell) :=
  let cs := skipBlanks cs
  let cs := if startsWith '#' cs then cs.dropWhile (!·.lineEnd) else cs
  match cs with
  | [] => some []
  | c :: rest => if c.lineEnd then some rest else none

end Interlock.Yaml
