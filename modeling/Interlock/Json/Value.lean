/-!
# JSON values

The values that are written as JSON, and their text: objects and arrays over several lines with an
indentation of two blanks, empty ones closed at once, and strings with as few escapes as JSON
allows.
-/

namespace Interlock.Json

/-- A value to be written. -/
inductive Value where
  | null
  | bool (b : Bool)
  | whole (n : Int)
  | text (s : String)
  | array (items : List Value)
  | object (members : List (String × Value))
deriving Inhabited

namespace Value

/-- A digit below sixteen. -/
def hexDigit (n : Nat) : Char := Nat.digitChar n

/-- A character inside a string: quotes and backslashes are escaped, and so are control characters,
by a letter where there is one and by number elsewhere. -/
def escape (c : Char) : List Char :=
  if c = '"' then ['\\', '"']
  else if c = '\\' then ['\\', '\\']
  else if c = '\n' then ['\\', 'n']
  else if c = '\r' then ['\\', 'r']
  else if c = '\t' then ['\\', 't']
  else if c = '\x08' then ['\\', 'b']
  else if c = '\x0c' then ['\\', 'f']
  else if c.toNat < 32 then ['\\', 'u', '0', '0', hexDigit (c.toNat / 16), hexDigit (c.toNat % 16)]
  else [c]

/-- A string in quotes. -/
def quoted (s : String) : List Char := '"' :: s.toList.flatMap escape ++ ['"']

/-- A whole number. -/
def wholeChars : Int → List Char
  | .ofNat n => Nat.toDigits 10 n
  | .negSucc n => '-' :: Nat.toDigits 10 (n + 1)

/-- A line break and an indentation. -/
def newline (depth : Nat) : List Char := '\n' :: List.replicate (2 * depth) ' '

mutual

/-- The text of a value that stands at a depth. -/
def chars (depth : Nat) : Value → List Char
  | null => ['n', 'u', 'l', 'l']
  | bool true => ['t', 'r', 'u', 'e']
  | bool false => ['f', 'a', 'l', 's', 'e']
  | whole n => wholeChars n
  | text s => quoted s
  | array [] => ['[', ']']
  | array (v :: rest) =>
    '[' :: newline (depth + 1) ++ chars (depth + 1) v ++ itemChars (depth + 1) rest ++
      newline depth ++ [']']
  | object [] => ['{', '}']
  | object ((key, v) :: rest) =>
    '{' :: newline (depth + 1) ++ quoted key ++ ':' :: ' ' :: chars (depth + 1) v ++
      memberChars (depth + 1) rest ++ newline depth ++ ['}']

/-- The text of the items after the first. -/
def itemChars (depth : Nat) : List Value → List Char
  | [] => []
  | v :: rest => ',' :: newline depth ++ chars depth v ++ itemChars depth rest

/-- The text of the members after the first. -/
def memberChars (depth : Nat) : List (String × Value) → List Char
  | [] => []
  | (key, v) :: rest =>
    ',' :: newline depth ++ quoted key ++ ':' :: ' ' :: chars depth v ++ memberChars depth rest

end

/-- The text of a value. -/
def render (v : Value) : String := String.ofList (v.chars 0)

/-- An array of strings. -/
def texts (l : List String) : Value := array (l.map text)

/-- An array of whole numbers. -/
def wholes (l : List Int) : Value := array (l.map whole)

/-- A member that is left out where there is no value. -/
def member? (key : String) : Option Value → List (String × Value)
  | some v => [(key, v)]
  | none => []

end Value

end Interlock.Json
