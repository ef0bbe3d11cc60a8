import Interlock.Text.Hex
import Interlock.Yaml.Scalar.Gap
/-!
# Quoted scalars

Between single quotes a quote is written twice. Between double quotes a backslash starts an escape,
and one at the end of a line joins the line to the next. In both, a document mark is refused.
-/

namespace Interlock.Yaml

/-- A scanned text and what follows its last quote. -/
abbrev Quoted := List Char × List Cell

/-- The text with more in front. -/
def Quoted.after (before : List Char) (q : Quoted) : Quoted := (before ++ q.1, q.2)

/-- Scans a scalar from after its single quote on. -/
def scanSingle? : Gap → List Cell → Option Quoted
  | _, [] => none
  | g, c :: rest =>
    if isDocumentMark (c :: rest) then none
    else if c.blank then scanSingle? (g.addBlank c.char) rest
    else if c.lineEnd then scanSingle? (g.addBreak c.char) rest
    else if c.char = '\'' then
      match rest with
      | d :: rest' =>
        if d.char = '\'' then (scanSingle? {} rest').map (.after (g.text ++ ['\'']))
        else some (g.text, rest)
      | [] => some (g.text, rest)
    else (scanSingle? {} rest).map (.after (g.text ++ [c.char]))

/-- The character of a letter after a backslash. -/
def escapeOf? (c : Char) : Option Char :=
  [('0', '\x00'), ('a', '\x07'), ('b', '\x08'), ('t', '\t'), ('\t', '\t'), ('n', '\n'),
    ('v', '\x0b'), ('f', '\x0c'), ('r', '\r'), ('e', '\x1b'), (' ', ' '), ('"', '"'), ('/', '/'),
    ('\\', '\\'), ('N', '\x85'), ('_', '\u00a0'), ('L', '\u2028'), ('P', '\u2029')].lookup c

/-- The number of hexadecimal digits after a letter. -/
def escapeWidth? (c : Char) : Option Nat := [('x', 2), ('u', 4), ('U', 8)].lookup c

/-- Where in a scalar between double quotes a reader is. -/
inductive QuotedPart where
  | text
  | backslash
  /-- Before the last digits of an escape, and the value of those before. -/
  | digits (left value : Nat)
deriving DecidableEq, Repr

/-- Scans a scalar from after its double quote on. -/
def scanDouble? : QuotedPart → Gap → List Cell → Option Quoted
  | _, _, [] => none
  | .text, g, c :: rest =>
    if isDocumentMark (c :: rest) then none
    else if c.blank then scanDouble? .text (g.addBlank c.char) rest
    else if c.lineEnd then scanDouble? .text (g.addBreak c.char) rest
    else if c.char = '"' then some (g.text, rest)
    else if c.char = '\\' then scanDouble? .backslash g rest
    else (scanDouble? .text {} rest).map (.after (g.text ++ [c.char]))
  | .backslash, g, c :: rest =>
    if c.lineEnd then (scanDouble? .text .escaped rest).map (.after g.text)
    else match escapeWidth? c.char with
      | some width => scanDouble? (.digits width 0) g rest
      | none => do
        let e ← escapeOf? c.char
        (scanDouble? .text {} rest).map (.after (g.text ++ [e]))
  | .digits left value, g, c :: rest => do
    let value := value * 16 + (← Text.hexValue? c.char)
    if left ≤ 1 then
      let e ← Text.charOf? value
      (scanDouble? .text {} rest).map (.after (g.text ++ [e]))
    else scanDouble? (.digits (left - 1) value) g rest

end Interlock.Yaml
