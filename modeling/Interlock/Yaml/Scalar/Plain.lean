import Interlock.Yaml.Scalar.Gap
/-!
# Plain scalars

A plain scalar has no signs around it. It ends before a colon that ends a word, before a comment,
before a document mark, in brackets before a comma or bracket, and outside of them before a line
that is not indented enough.
-/

namespace Interlock.Yaml

/-- Brackets and the comma, which separate scalars where there are brackets. -/
def isFlowSign (c : Char) : Bool := c ∈ [',', '[', ']', '\x7b', '\x7d']

/-- A plain scalar goes no further than before this character. -/
def endsPlain (flow : Bool) (c : Cell) (rest : List Cell) : Bool :=
  (c.char = ':' && endsWord rest) || (flow && isFlowSign c.char)

/-- After a gap, a plain scalar does not go on with this character. -/
def endsAfterGap (flow : Bool) (indent : Nat) (c : Cell) (rest : List Cell) : Bool :=
  (!flow && c.column < indent) || isDocumentMark (c :: rest) || c.char = '#'

/-- A colon in brackets may not stand right before a sign. -/
def isLooseColon (flow : Bool) (c : Cell) : List Cell → Bool
  | [] => false
  | d :: _ => flow && c.char = ':' && (isFlowSign d.char || d.char = '?')

/-- What a scanned scalar leaves: its text, whether it ends after the end of a line, and the
rest. -/
structure Scanned where
  text : List Char
  broken : Bool
  rest : List Cell

/-- The text with more in front. -/
def Scanned.after (before : List Char) (s : Scanned) : Scanned :=
  { s with text := before ++ s.text }

/-- Scans a plain scalar. Lines after its first have to be indented by `indent`, and by no tab. -/
def scanPlain? (flow : Bool) (indent : Nat) : Gap → List Cell → Option Scanned
  | g, [] => some ⟨[], g.broken, []⟩
  | g, c :: rest =>
    if c.blank then
      if g.broken && c.column < indent && c.char = '\t' then none
      else scanPlain? flow indent (g.addBlank c.char) rest
    else if c.lineEnd then scanPlain? flow indent (g.addBreak c.char) rest
    else if g.isOpen && endsAfterGap flow indent c rest then some ⟨[], g.broken, c :: rest⟩
    else if isLooseColon flow c rest then none
    else if endsPlain flow c rest then some ⟨[], g.broken, c :: rest⟩
    else (scanPlain? flow indent {} rest).map (.after (g.text ++ [c.char]))

/-- A plain scalar may start here. Outside of brackets a question mark or a colon may be its first
character if it is not a word of its own. -/
def startsPlain (flow : Bool) (c : Cell) (rest : List Cell) : Bool :=
  !(c.blank || c.lineEnd || isFlowSign c.char ||
      c.char ∈ ['-', '?', ':', '#', '&', '*', '!', '|', '>', '\'', '"', '%', '@', '\x60']) ||
    (c.char = '-' && !(rest.head?.any Cell.blank)) ||
    (!flow && (c.char = '?' || c.char = ':') && !endsWord rest)

end Interlock.Yaml
