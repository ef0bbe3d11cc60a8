import Interlock.Text.Hidden
/-!
# Strings in messages

A message shows a string in quotes, so that its ends and its invisible characters can be seen.
-/

namespace Interlock.Text

/-- A character inside the quotes. Characters that are not shown as they are stand there by
number. -/
def debugChar (c : Char) : List Char :=
  if c = '\x00' then ['\\', '0']
  else if c = '\t' then ['\\', 't']
  else if c = '\n' then ['\\', 'n']
  else if c = '\r' then ['\\', 'r']
  else if c = '"' ∨ c = '\\' then ['\\', c]
  else if isHidden c then
    ['\\', 'u', '\x7b'] ++ Nat.toDigits 16 c.toNat ++ ['\x7d']
  else [c]

/-- A string in quotes, with escapes for what cannot be seen. -/
def debug (s : String) : String :=
  String.ofList ('"' :: s.toList.flatMap debugChar ++ ['"'])

end Interlock.Text
