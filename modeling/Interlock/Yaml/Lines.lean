import Interlock.Document
import Interlock.Yaml.Writer
/-!
# Values line by line

A record is written with a line for each field: its name, a colon, and its value. A record in a
field stands on the lines below, further to the right. A list of texts stands there too, with its
items in the column of its name.
-/

namespace Interlock.Yaml

open Document

/-- A text in a list, on a line of its own. -/
def itemLine (col : Nat) (s : String) : List Char :=
  List.replicate col ' ' ++ '-' :: ' ' :: Scalar.write (col + Scalar.step) s.toList

/-- A word after the colon behind a name. -/
def wordLine (word : String) : List Char := ' ' :: (word.toList ++ ['\n'])

mutual

/-- What stands after the colon behind a name in a column. -/
def valueLines (col : Nat) : Value → List Char
  | .null => wordLine "null"
  | .truth b => wordLine (toString b)
  | .number n => wordLine (toString n)
  | .text s | .variant s => ' ' :: Scalar.write (col + Scalar.step) s.toList
  | .texts [] => wordLine "[]"
  | .texts (s :: ss) => '\n' :: (s :: ss).flatMap (itemLine col)
  | .record [] => wordLine "\x7b\x7d"
  | .record (f :: fs) => '\n' :: fieldLines (col + Scalar.step) (f :: fs)

/-- The fields of a record in a column. -/
def fieldLines (col : Nat) : List (String × Value) → List Char
  | [] => []
  | (name, v) :: fs =>
    List.replicate col ' ' ++ (name.toList ++ ':' :: valueLines col v) ++ fieldLines col fs

end

/-- A record as a text of its own. -/
def writeRecord : List (String × Value) → String
  | [] => "\x7b\x7d\n"
  | f :: fs => String.ofList (fieldLines 0 (f :: fs))

end Interlock.Yaml
