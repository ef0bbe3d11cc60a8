import Interlock.Yaml.Node
import Interlock.Yaml.Resolution
/-!
# Values of nodes

What a node stands for, if it stands for something of the kind that is asked for. A truth value or a
number is a plain scalar, or a literal one whose tag says what it is. A text is any scalar.
-/

namespace Interlock.Yaml.Node

/-- The tags that have a meaning for every reader. -/
def standardTag (name : String) : Tag := .named ("tag:yaml.org,2002:" ++ name).toList

/-- The text of a scalar that may stand for a value of a kind. -/
def resolvable? (kind : String) : Node → Option (List Char)
  | .scalar _ .plain text => some text
  | .scalar tag .literal text => if tag = some (standardTag kind) then some text else none
  | _ => none

/-- The truth value that a node stands for. -/
def bool? (n : Node) : Option Bool := (n.resolvable? "bool").bind Resolution.bool?

/-- The number below a limit that a node stands for. -/
def natural? (limit : Nat) (n : Node) : Option Nat :=
  (n.resolvable? "int").bind (Resolution.natural? limit)

/-- The text of a scalar. -/
def text? : Node → Option String
  | .scalar _ _ text => some (String.ofList text)
  | _ => none

/-- The node stands for null: it is plain and has no other text. -/
def isNull : Node → Bool
  | .scalar _ .plain text => text.isEmpty || Resolution.isNull text
  | _ => false

/-- Whether a node is null, where it may be. A scalar with a tag is null only by the tag of null,
and then its text has to say so too. -/
def isNull? : Node → Option Bool
  | .scalar (some tag) .plain text =>
    if tag = standardTag "null" then if Resolution.isNull text then some true else none
    else some false
  | n => some n.isNull

/-- There is nothing where a collection could be. -/
def isNothing : Node → Bool
  | .scalar _ .plain [] => true
  | _ => false

/-- The items of a sequence; there are none where nothing stands. -/
def items? : Node → Option (List Node)
  | .sequence items => some items
  | n => if n.isNothing then some [] else none

/-- The members of a mapping; there are none where nothing stands. -/
def members? : Node → Option (List (Node × Node))
  | .mapping members => some members
  | n => if n.isNothing then some [] else none

/-- The name of a value of an enumeration: a text, or the tag of a null. -/
def variant? : Node → Option String
  | .scalar (some (.named ('!' :: name))) style text =>
    if isNull (.scalar none style text) then some (String.ofList name) else none
  | n => n.text?

end Interlock.Yaml.Node
