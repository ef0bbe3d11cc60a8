import Interlock.Yaml.Resolution
import Interlock.Yaml.Place
import Interlock.Yaml.Token
/-!
# Written scalars

A text is written plain if it reads back as it is and nobody could take it for something else. Else
it goes between single quotes, or, where that does not do, between double quotes with escapes. A
text of several lines is written line by line. `Scalar.style` is the choice, and `Scalar.write` the
writing.
-/

namespace Interlock.Yaml.Scalar

/-- The character can be written as it is: it is no control character apart from the line feed, no
mark of byte order, and neither of the two that are no characters. -/
def isPrintable (c : Char) : Bool :=
  c = '\n' || (' ' ≤ c && c ≤ '~') || ('\u00a0' ≤ c && c ∉ ['\ufeff', '\ufffe', '\uffff'])

/-- A space or a line end. -/
def isSpace (c : Char) : Bool := c = ' ' || isBreak c

/-- Two characters that stand beside each other somewhere. -/
def hasPair (p q : Char → Bool) : List Char → Bool
  | c :: d :: rest => (p c && q d) || hasPair p q (d :: rest)
  | _ => false

/-- Some text needs escapes: it has a character that cannot be written, or a space before a line
end, which would get lost. -/
def needsEscapes (cs : List Char) : Bool :=
  cs.any (!isPrintable ·) || hasPair (· = ' ') isBreak cs

/-- The rest of a text starts with white space, or is empty. -/
def startsBlank : List Char → Bool
  | [] => true
  | c :: _ => isBlank c || isBreak c

/-- A first sign by which a scalar would be taken for something else. -/
def isLeadSign (c : Char) (rest : List Char) : Bool :=
  c ∈ ['#', ',', '[', ']', '\x7b', '\x7d', '&', '*', '!', '|', '>', '\'', '"', '%', '@', '\x60'] ||
    (c ∈ ['?', ':', '-'] && startsBlank rest)

/-- Inside the text there is a colon that ends a word, or a number sign that starts one. -/
def hasInnerSign : List Char → Bool
  | c :: d :: rest =>
    (d = ':' && startsBlank rest) || (d = '#' && (isBlank c || isBreak c)) ||
      hasInnerSign (d :: rest)
  | _ => false

/-- A text on one line that can be written plain. -/
def isPlain : List Char → Bool
  | [] => false
  | c :: rest =>
    let cs := c :: rest
    !(cs.any isBreak || c = ' ' || cs.getLast? = some ' ' || cs.any (!isPrintable ·) ||
      isLeadSign c rest || hasInnerSign cs || "---".toList.isPrefixOf cs ||
      "...".toList.isPrefixOf cs)

/-- A text of several lines can be written line by line. -/
def isLiteral (cs : List Char) : Bool := !(needsEscapes cs || cs.getLast? = some ' ')

/-- A text can be written between single quotes. -/
def isSingleQuoted (cs : List Char) : Bool := !(needsEscapes cs || hasPair isBreak (· = ' ') cs)

/-- How a text is written. -/
def style (cs : List Char) : Style :=
  if '\n' ∈ cs then if isLiteral cs then .literal else .doubleQuoted
  else if !Resolution.isAmbiguous cs && isPlain cs then .plain
  else if isSingleQuoted cs then .singleQuoted
  else .doubleQuoted

/-- Capital hexadecimal digits of a number, so many. -/
def hexDigits (width n : Nat) : List Char :=
  let digits := (Nat.toDigits 16 n).map Char.toUpper
  List.replicate (width - digits.length) '0' ++ digits

/-- The letter after the backslash for a character that has one. -/
def escapeLetter? (c : Char) : Option Char :=
  [('\x00', '0'), ('\x07', 'a'), ('\x08', 'b'), ('\t', 't'), ('\n', 'n'), ('\x0b', 'v'),
    ('\x0c', 'f'), ('\r', 'r'), ('\x1b', 'e'), ('"', '"'), ('\\', '\\'), ('\x85', 'N'),
    ('\u2028', 'L'), ('\u2029', 'P')].lookup c

/-- A character between double quotes. -/
def escape (c : Char) : List Char :=
  match escapeLetter? c with
  | some letter => ['\\', letter]
  | none =>
    if isPrintable c then [c]
    else if c.toNat < 0x100 then '\\' :: 'x' :: hexDigits 2 c.toNat
    else '\\' :: 'u' :: hexDigits 4 c.toNat

/-- A text between double quotes. -/
def writeDouble (cs : List Char) : List Char := '"' :: cs.flatMap escape ++ ['"']

/-- The characters of a text, with an indentation before each line that has some. `broken` says that
a line starts here. -/
def indentLines (indent : Nat) (write : Char → List Char) : Bool → List Char → List Char
  | _, [] => []
  | broken, c :: rest =>
    if isBreak c then c :: indentLines indent write true rest
    else
      (if broken then List.replicate indent ' ' else []) ++ write c ++
        indentLines indent write false rest

/-- The text ends with the end of a line. -/
def endsBroken (cs : List Char) : Bool := cs.getLast?.any isBreak

/-- A character between single quotes. -/
def doubleQuote (c : Char) : List Char := if c = '\'' then ['\'', '\''] else [c]

/-- A text between single quotes. Lines after its first are indented, and the last quote too. -/
def writeSingle (indent : Nat) (cs : List Char) : List Char :=
  '\'' :: indentLines indent doubleQuote false cs ++
    (if endsBroken cs then List.replicate indent ' ' else []) ++ ['\'']

/-- The sign for the line ends at the end of a text. -/
def chompSign (cs : List Char) : List Char :=
  match cs.reverse with
  | [] => ['-']
  | c :: before =>
    if !isBreak c then ['-']
    else match before with
      | [] => ['+']
      | d :: _ => if isBreak d then ['+'] else []

/-- The columns by which the lines of a text are indented more than its parent. -/
def step : Nat := 2

/-- A text line by line. Where its first line starts with white space the indentation is said. -/
def writeLiteral (indent : Nat) (cs : List Char) : List Char :=
  '|' :: (if cs.head?.any isSpace then Nat.toDigits 10 step else []) ++ chompSign cs ++
    '\n' :: indentLines indent ([·]) true cs

/-- A text and the end of its line. Its lines after the first are indented. -/
def write (indent : Nat) (cs : List Char) : List Char :=
  match style cs with
  | .plain => cs ++ ['\n']
  | .doubleQuoted => writeDouble cs ++ ['\n']
  | .literal =>
    if endsBroken cs then writeLiteral indent cs else writeLiteral indent cs ++ ['\n']
  | _ => writeSingle indent cs ++ ['\n']

end Interlock.Yaml.Scalar
