import Interlock.Text.Hex
/-!
# What plain scalars stand for

A plain scalar may stand for null, a truth value or a number. Where a text is wanted it is a text
all the same, so this matters where something else is wanted, and for a writer, which puts a text in
quotes if other readers could take it for something else.
-/

namespace Interlock.Yaml.Resolution

/-- The scalar stands for null. A scalar without characters does too, if it is plain. -/
def isNull (cs : List Char) : Bool := String.ofList cs ∈ ["~", "null", "Null", "NULL"]

/-- The truth value that a scalar stands for. -/
def bool? (cs : List Char) : Option Bool :=
  [("true", true), ("True", true), ("TRUE", true),
    ("false", false), ("False", false), ("FALSE", false)].lookup (String.ofList cs)

/-- The value of a digit under a base. -/
def digit? (base : Nat) (c : Char) : Option Nat := (Text.hexValue? c).filter (· < base)

/-- The number that digits stand for, of which there is at least one. -/
def digits? (base : Nat) (cs : List Char) : Option Nat :=
  if cs.isEmpty then none
  else cs.foldlM (fun n c => (digit? base c).map (n * base + ·)) 0

/-- The base that a number starts with, and what follows. -/
def base? : List Char → Option (Nat × List Char)
  | '0' :: 'x' :: rest => some (16, rest)
  | '0' :: 'o' :: rest => some (8, rest)
  | '0' :: 'b' :: rest => some (2, rest)
  | _ => none

/-- Takes a sign away. -/
def dropSign : List Char → List Char
  | '+' :: rest | '-' :: rest => rest
  | cs => cs

/-- Several digits of which the first is zero are no number. -/
def isPadded (cs : List Char) : Bool :=
  match dropSign cs with
  | '0' :: c :: rest => (c :: rest).all Char.isDigit
  | _ => false

/-- The natural number that digits without a sign stand for, with a base before them or without. -/
def magnitude? (cs : List Char) : Option Nat :=
  match base? cs with
  | some (base, rest) => digits? base rest
  | none => if isPadded cs then none else digits? 10 cs

/-- The natural number below a limit that a scalar stands for. -/
def natural? (limit : Nat) (cs : List Char) : Option Nat :=
  (magnitude? (match cs with
    | '+' :: rest => rest
    | _ => cs)).filter (· < limit)

/-- The scalar stands for a whole number of at most 128 bits. -/
def isWhole (cs : List Char) : Bool :=
  (natural? (Nat.pow 2 128) cs).isSome ||
    match cs with
    | '-' :: rest => (magnitude? rest).any (· ≤ Nat.pow 2 127)
    | _ => false

/-- The exponent after the digits of a decimal numeral; zero if there is nothing. -/
def exponent? : List Char → Option Int
  | [] => some 0
  | c :: rest =>
    if c = 'e' ∨ c = 'E' then
      match rest with
      | '-' :: rest => (digits? 10 rest).map (-·)
      | '+' :: rest => (digits? 10 rest).map (·)
      | rest => (digits? 10 rest).map (·)
    else none

/-- The significand and the power of ten of a decimal numeral, which has at least one digit before
the exponent. -/
def decimal? (cs : List Char) : Option (Nat × Int) := do
  let whole := cs.takeWhile Char.isDigit
  let rest := cs.dropWhile Char.isDigit
  let (fraction, rest) := match rest with
    | '.' :: rest => (rest.takeWhile Char.isDigit, rest.dropWhile Char.isDigit)
    | _ => ([], rest)
  let significand ← digits? 10 (whole ++ fraction)
  return (significand, (← exponent? rest) - fraction.length)

/-- The least number that is too large for a floating point number of 64 bits. -/
def overflow : Nat := Nat.pow 2 1024 - Nat.pow 2 970

/-- The number is in the range of floating point numbers of 64 bits. A number of more than 309
digits is not, and one below one is. -/
def inRange (significand : Nat) (power : Int) : Bool :=
  let digits : Int := (Nat.toDigits 10 significand).length + power
  if significand = 0 ∨ digits < 0 then true
  else if 309 < digits then false
  else significand * Nat.pow 10 power.toNat < overflow * Nat.pow 10 (-power).toNat

/-- The scalar stands for a floating point number. -/
def isFloat (cs : List Char) : Bool :=
  String.ofList cs ∈ [".inf", ".Inf", ".INF", "+.inf", "+.Inf", "+.INF", "-.inf", "-.Inf", "-.INF",
      ".nan", ".NaN", ".NAN"] ||
    (decimal? (dropSign cs)).any fun (significand, power) => inRange significand power

/-- A reader could take the scalar for something that is no text. -/
def isAmbiguous (cs : List Char) : Bool :=
  cs.isEmpty || isNull cs || (bool? cs).isSome || isWhole cs || isPadded cs || isFloat cs

end Interlock.Yaml.Resolution
