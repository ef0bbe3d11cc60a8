import Interlock.Text.Hex
import Interlock.Yaml.Place
import Interlock.Yaml.Token
/-!
# Names, tags and directives

An anchor is a name, and an alias repeats it. A tag is a handle and the rest of a name, which may
have characters escaped byte by byte. Directives stand before a document, one on a line.
-/

namespace Interlock.Yaml

/-- Characters of anchors and handles. -/
def isNameChar (c : Char) : Bool := c.isAlphanum || c = '_' || c = '-'

/-- The cells of a name. -/
def takeName (cs : List Cell) : List Char := Cell.chars (cs.takeWhile fun c => isNameChar c.char)

/-- What follows a name. -/
def dropName (cs : List Cell) : List Cell := cs.dropWhile fun c => isNameChar c.char

/-- An anchor ends here. -/
def endsAnchor (cs : List Cell) : Bool :=
  endsWord cs || cs.head?.any fun c => c.char ∈ ['?', ':', ',', ']', '\x7d', '%', '@', '\x60']

/-- Scans the name of an anchor or alias. -/
def scanAnchor? (cs : List Cell) : Option (List Char × List Cell) :=
  let name := takeName cs
  let rest := dropName cs
  if !name.isEmpty && endsAnchor rest then some (name, rest) else none

namespace Tag

/-- Characters of the rest of a tag. Between angle brackets and in directives some signs may stand
there that otherwise separate. -/
def isUriChar (wide : Bool) (c : Char) : Bool :=
  isNameChar c ||
    c ∈ [';', '/', '?', ':', '@', '&', '=', '+', '$', '.', '%', '!', '~', '*', '\'', '(', ')'] ||
    (wide && c ∈ [',', '[', ']'])

/-- The number of bytes of a character that starts with a byte. -/
def byteCount? (b : Nat) : Option Nat :=
  if b < 0x80 then some 1
  else if b < 0xc0 then none
  else if b < 0xe0 then some 2
  else if b < 0xf0 then some 3
  else if b < 0xf8 then some 4
  else none

/-- The bits that the first byte of so many adds to a character. -/
def leadBits (b : Nat) : Nat → Nat
  | 1 => b
  | 2 => b % 32
  | 3 => b % 16
  | _ => b % 8

/-- The character of its bytes, which are as many as the first one says. None if there is none, or
if fewer bytes would do. -/
def charOfBytes? : List Nat → Option Char
  | [] => none
  | b :: rest => do
    let count := rest.length + 1
    let c ← Text.charOf? (rest.foldl (fun n d => n * 64 + d % 64) (leadBits b count))
    if c.utf8Size = count then some c else none

/-- Where in the rest of a tag a reader is. -/
inductive Part where
  | text
  /-- Before the next byte of a character, with those read so far, latest first. -/
  | percent (seen : List Nat)
  | high (seen : List Nat)
  | low (seen : List Nat) (high : Nat)
deriving DecidableEq, Repr

/-- What comes after one more byte of a character: the character, once it is complete. -/
def Part.next? (seen : List Nat) (b : Nat) : Option (Part × Tag) := do
  let bytes := (b :: seen).reverse
  let count ← byteCount? (bytes.headD 0)
  if !seen.isEmpty && (b < 0x80 || 0xc0 ≤ b) then none
  else if bytes.length < count then some (.percent (b :: seen), .named [])
  else some (.text, match charOfBytes? bytes with
    | some c => .named [c]
    | none => .garbled)

/-- Scans the rest of a tag. -/
def scanRest? (wide : Bool) : Part → List Cell → Option (Tag × List Cell)
  | .text, [] => some (.named [], [])
  | .percent _, [] | .high _, [] | .low _ _, [] => none
  | .text, c :: rest =>
    if c.char = '%' then scanRest? wide (.high []) rest
    else if isUriChar wide c.char then
      (scanRest? wide .text rest).map fun (t, r) => (.append (.named [c.char]) t, r)
    else some (.named [], c :: rest)
  | .percent seen, c :: rest => if c.char = '%' then scanRest? wide (.high seen) rest else none
  | .high seen, c :: rest => do scanRest? wide (.low seen (← Text.hexValue? c.char)) rest
  | .low seen high, c :: rest => do
    let (part, piece) ← Part.next? seen (high * 16 + (← Text.hexValue? c.char))
    (scanRest? wide part rest).map fun (t, r) => (piece.append t, r)

/-- Scans the rest of a tag where it must not be empty. -/
def scanSome? (wide : Bool) (cs : List Cell) : Option (Tag × List Cell) :=
  if cs.head?.any fun c => isUriChar wide c.char then scanRest? wide .text cs else none

/-- A tag ends here. -/
def ends (flow : Bool) (cs : List Cell) : Bool := endsWord cs || (flow && startsWith ',' cs)

/-- Scans a tag without its end, from after its first exclamation mark on. -/
def scanName? (cs : List Cell) : Option (Token × List Cell) :=
  if startsWith '<' cs then do
    let (t, rest) ← scanSome? true cs.tail
    if startsWith '>' rest then some (.tag [] t, rest.tail) else none
  else
    let name := takeName cs
    let rest := dropName cs
    if startsWith '!' rest then do
      let (t, rest) ← scanSome? false rest.tail
      return (.tag ('!' :: name ++ ['!']) t, rest)
    else do
      let (t, rest) ← scanRest? false .text rest
      let t := append (.named name) t
      return (if t = .named [] then .tag [] (.named ['!']) else .tag ['!'] t, rest)

/-- Scans a tag from after its first exclamation mark on. -/
def scan? (flow : Bool) (cs : List Cell) : Option (Token × List Cell) := do
  let (t, rest) ← scanName? cs
  if ends flow rest then some (t, rest) else none

end Tag

namespace Directive

/-- Scans a number of at most nine digits. -/
def scanNumber? (cs : List Cell) : Option (Nat × List Cell) :=
  let digits := Cell.chars (cs.takeWhile fun c => c.char.isDigit)
  if digits.isEmpty || 9 < digits.length then none
  else some (digits.foldl (fun n c => n * 10 + (c.toNat - '0'.toNat)) 0,
    cs.dropWhile fun c => c.char.isDigit)

/-- Scans a version. -/
def scanVersion? (cs : List Cell) : Option (Token × List Cell) := do
  let (major, rest) ← scanNumber? (skipBlanks cs)
  if startsWith '.' rest then
    let (minor, rest) ← scanNumber? rest.tail
    return (.version major minor, rest)
  else none

/-- Scans a handle and what it stands for. -/
def scanHandle? (cs : List Cell) : Option (Token × List Cell) := do
  let cs := skipBlanks cs
  if !startsWith '!' cs then none
  else
    let name := takeName cs.tail
    let rest := dropName cs.tail
    let (handle, rest) ←
      if startsWith '!' rest then some ('!' :: name ++ ['!'], rest.tail)
      else if name.isEmpty then some (['!'], rest)
      else none
    if !(rest.head?.any Cell.blank) then none
    else
      let (start, rest) ← Tag.scanSome? true (skipBlanks rest)
      if endsWord rest then some (.handle handle start, rest) else none

/-- Scans a directive from after its percent sign on, with its line. -/
def scan? (cs : List Cell) : Option (Token × List Cell) := do
  let name := takeName cs
  let rest := dropName cs
  if !endsWord rest then none
  else
    let (t, rest) ←
      if name = "YAML".toList then scanVersion? rest
      else if name = "TAG".toList then scanHandle? rest
      else none
    return (t, ← skipLine? rest)

end Directive

end Interlock.Yaml
