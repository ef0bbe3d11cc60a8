import Interlock.Decimal.Binary64
/-!
# Numerals

A numeral of JSON is a whole number as long as it has neither a point nor an exponent and fits into
64 bits; any other numeral, and `-0` with them, is a floating point number. A significand takes up
digits as long as it stays below `2 ^ 64`. The digits of the whole part that do not fit count as a
power of ten, and those after the point that do not fit are dropped.
-/

namespace Interlock.Json

/-- A numeral as it is written. Digits are numbers below ten. -/
structure Numeral where
  negative : Bool := false
  whole : List Nat
  /-- The digits after the point. -/
  fraction : Option (List Nat) := none
  /-- The digits of the exponent, and whether it is negative. -/
  exponent : Option (Bool × List Nat) := none
deriving DecidableEq, Repr, Inhabited

/-- The number that a numeral stands for. -/
inductive Number where
  | whole (value : Int)
  | float (negative : Bool) (magnitude : Decimal.Binary64)
deriving DecidableEq, Repr, Inhabited

/-- How a number is named in an error. -/
def Number.text : Number → String
  | whole n => s!"integer `{n}`"
  | float negative x => "floating point `" ++ (if negative then "-" else "") ++ x.text ++ "`"

namespace Numeral

/-- The first number that does not fit into 64 bits. -/
def wordLimit : Nat := Nat.pow 2 64

/-- Takes up digits as long as the significand fits, and counts the digits that are left. -/
def takeDigits : Nat → List Nat → Nat × Nat
  | n, [] => (n, 0)
  | n, d :: rest =>
    if n * 10 + d < wordLimit then takeDigits (n * 10 + d) rest else (n, rest.length + 1)

/-- The value of digits. -/
def digitsValue (ds : List Nat) : Nat := ds.foldl (fun n d => n * 10 + d) 0

/-- The largest exponent that is computed with; a larger one leads out of range, or to zero. -/
def exponentLimit : Nat := 2147483647

/-- The floating point number of a significand, a power of ten and a written exponent. -/
def float? (significand : Nat) (power : Int) : Option (Bool × List Nat) →
    Option Decimal.Binary64
  | none => Decimal.Binary64.ofDecimal? significand power
  | some (negative, ds) =>
    let e := digitsValue ds
    if exponentLimit < e then
      if significand ≠ 0 ∧ !negative then none else some .zero
    else Decimal.Binary64.ofDecimal? significand (if negative then power - e else power + e)

/-- The number that a numeral stands for; none if it is too large. -/
def number? (n : Numeral) : Option Number :=
  let (significand, dropped) := takeDigits 0 n.whole
  match n.fraction, n.exponent with
  | none, none =>
    if dropped = 0 then
      if !n.negative then some (.whole significand)
      else if 0 < significand ∧ significand ≤ Nat.pow 2 63 then some (.whole (-significand))
      else (float? significand 0 none).map (.float true)
    else (float? significand dropped none).map (.float n.negative)
  | fraction, exponent =>
    let ds := fraction.getD []
    let (extended, left) := takeDigits significand ds
    let taken : Nat := ds.length - left
    (float? extended ((dropped : Int) - taken) exponent).map (.float n.negative)

end Numeral

end Interlock.Json
