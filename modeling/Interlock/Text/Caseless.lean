/-!
# Names without regard to case

The names of settings are ASCII, and a user may write them in any case. A text matches a name if its
lower case is the name. Outside ASCII one character alone has an ASCII letter as its lower case, the
Kelvin sign, so folding it with the ASCII capitals decides the match.
-/

namespace Interlock.Text

/-- The lower case of a character, as far as it is an ASCII letter. -/
def foldCase (c : Char) : Char := if c = '\u212a' then 'k' else c.toLower

/-- The text is the name, in any case. The name is in lower case and ASCII. -/
def matchesName (text name : String) : Bool := text.toList.map foldCase == name.toList

/-- The first of the named values whose name matches the text. -/
def findNamed? {α : Type} (name : α → String) (values : List α) (text : String) : Option α :=
  values.find? fun a => matchesName text (name a)

end Interlock.Text
