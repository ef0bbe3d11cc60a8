import Interlock.Yaml.Place
/-!
# Gaps in scalars

White space inside a scalar that is not in a block counts only once more text follows. On one line
it stays as it is. Over a line end the blanks around it go, a single line end becomes a space, and
of several the first goes.
-/

namespace Interlock.Yaml

/-- White space since the last text of a scalar. -/
structure Gap where
  /-- The blanks, as long as no line has ended. -/
  blanks : List Char := []
  /-- A line has ended. -/
  broken : Bool := false
  /-- The first line end. A line end that was escaped leaves none. -/
  first : Option Char := none
  /-- The line ends after it. -/
  more : List Char := []
deriving DecidableEq, Repr, Inhabited

namespace Gap

/-- There is some white space. -/
def isOpen (g : Gap) : Bool := g.broken || !g.blanks.isEmpty

/-- The gap with one more blank. -/
def addBlank (g : Gap) (c : Char) : Gap :=
  if g.broken then g else { g with blanks := g.blanks ++ [c] }

/-- The gap with one more line end. -/
def addBreak (g : Gap) (c : Char) : Gap :=
  if g.broken then { g with more := g.more ++ [c] }
  else { broken := true, first := some c }

/-- A gap after a line end that was escaped. -/
def escaped : Gap := { broken := true }

/-- What the gap is in the scalar. -/
def text (g : Gap) : List Char :=
  if g.broken then
    if g.first = some '\n' then if g.more.isEmpty then [' '] else g.more
    else g.first.toList ++ g.more
  else g.blanks

end Gap

end Interlock.Yaml
