/-!
# Binary floating point in 64 bits

A decimal numeral that is no integer, or too large for one, stands for the nearest floating point
number. The finite numbers from zero up are kept as `mantissa * 2 ^ (exponent - 1074)` and computed
with exactly, in natural numbers: every operation is rounded once, to the nearest number, and in the
middle between two to the one with the even mantissa. `shortest` gives the fewest decimal digits
from which a number reads back.
-/

namespace Interlock.Decimal

/-- The number `mantissa * 2 ^ (exponent - 1074)`, with a mantissa below `2 ^ 53`. -/
structure Binary64 where
  mantissa : Nat
  exponent : Nat
deriving DecidableEq, Repr, Inhabited

namespace Binary64

/-- The number zero. -/
def zero : Binary64 := ⟨0, 0⟩

/-- A quotient, rounded to the nearest whole number, and in the middle to the even one. -/
def roundDiv (num den : Nat) : Nat :=
  let q := num / den
  let twice := 2 * (num % den)
  if twice < den then q else if den < twice then q + 1 else q + q % 2

/-- The exponent of a quotient of at least one unit: its mantissa fills 53 bits, or the exponent is
the least. -/
def exponentOf (num den : Nat) : Nat :=
  let units := num * Nat.pow 2 1074 / den
  if units = 0 then 0 else units.log2 - 52

/-- A quotient of natural numbers, rounded; none if it is too large. -/
def ofRatio? (num den : Nat) : Option Binary64 :=
  let e := exponentOf num den
  let m := roundDiv (num * Nat.pow 2 1074) (den * Nat.pow 2 e)
  let rounded : Binary64 := if m = Nat.pow 2 53 then ⟨Nat.pow 2 52, e + 1⟩ else ⟨m, e⟩
  if 2045 < rounded.exponent then none else some rounded

/-- The number as a quotient. -/
def ratio (x : Binary64) : Nat × Nat := (x.mantissa * Nat.pow 2 x.exponent, Nat.pow 2 1074)

/-- A product, rounded; none if it is too large. -/
def mul? (x y : Binary64) : Option Binary64 :=
  ofRatio? (x.ratio.1 * y.ratio.1) (x.ratio.2 * y.ratio.2)

/-- A quotient, rounded. -/
def div? (x y : Binary64) : Option Binary64 :=
  ofRatio? (x.ratio.1 * y.ratio.2) (x.ratio.2 * y.ratio.1)

/-- A number times a power of ten, by steps of at most 308 powers, each rounded; none if it is too
large. Three steps bring every number to zero. -/
def scale? : Nat → Binary64 → Int → Option Binary64
  | 0, x, _ => some x
  | steps + 1, x, e =>
    if e.natAbs ≤ 308 then do
      let power ← ofRatio? (Nat.pow 10 e.natAbs) 1
      if 0 ≤ e then x.mul? power else x.div? power
    else if x.mantissa = 0 then some x
    else if 0 ≤ e then none
    else do
      let power ← ofRatio? (Nat.pow 10 308) 1
      scale? steps (← x.div? power) (e + 308)

/-- The number that is nearest to `significand * 10 ^ e`, up to the rounding of each step. -/
def ofDecimal? (significand : Nat) (e : Int) : Option Binary64 := do
  scale? 4 (← ofRatio? significand 1) e

/-- The ends of the interval of the numbers that round to the given one, in quarters of its last
place, and whether they belong to it. -/
def interval (x : Binary64) : Nat × Nat × Bool :=
  let lower := if x.mantissa = Nat.pow 2 52 ∧ x.exponent ≠ 0 then 4 * x.mantissa - 1
    else 4 * x.mantissa - 2
  (lower, 4 * x.mantissa + 2, x.mantissa % 2 == 0)

/-- A multiple of a power of ten that reads back, as digits and the power: the nearer of the two
neighbours on the grid of that power, and in the middle between them the even one. -/
def onGrid? (x : Binary64) (power : Int) : Option (Nat × Int) :=
  -- all quantities in units of 2 ^ (-1076) / 10 ^ p
  let p := (-power).toNat
  let unit := Nat.pow 2 x.exponent * Nat.pow 10 p
  let step := Nat.pow 2 1076 * Nat.pow 10 power.toNat
  let value := 4 * x.mantissa * unit
  let (lower, upper, closed) := x.interval
  let inside (c : Nat) : Bool :=
    let y := c * step
    0 < c && (if closed then lower * unit ≤ y && y ≤ upper * unit
      else lower * unit < y && y < upper * unit)
  let below := value / step
  let above := below + 1
  match inside below, inside above with
  | true, true =>
    let middle := (below + above) * step
    if 2 * value < middle ∨ (2 * value = middle ∧ below % 2 = 0) then some (below, power)
    else some (above, power)
  | true, false => some (below, power)
  | false, true => some (above, power)
  | false, false => none

/-- The first grid with a hit, from the given power of ten downwards. -/
def search (x : Binary64) : Nat → Int → Nat × Int
  | 0, power => (0, power)
  | n + 1, power => (x.onGrid? power).getD (search x n (power - 1))

/-- The digits, as a number, and the power of ten of the shortest decimal that reads back. -/
def shortest (x : Binary64) : Nat × Int := if x.mantissa = 0 then (0, 0) else search x 650 309

/-- The shortest decimal that reads back as text. It is written without an exponent as long as its
point stands among sixteen digits or after at most five zeros. -/
def text (x : Binary64) : String :=
  let (number, power) := x.shortest
  let digits := Nat.toDigits 10 number
  let count : Int := digits.length
  let point := count + power
  let chars :=
    if number = 0 then ['0', '.', '0']
    else if 0 ≤ power ∧ point ≤ 16 then digits ++ List.replicate power.toNat '0' ++ ['.', '0']
    else if 0 < point ∧ point ≤ 16 then
      digits.take point.toNat ++ '.' :: digits.drop point.toNat
    else if -5 < point ∧ point ≤ 0 then
      ['0', '.'] ++ List.replicate (-point).toNat '0' ++ digits
    else
      let exponent := point - 1
      let mark := 'e' :: (if exponent < 0 then ['-'] else []) ++ Nat.toDigits 10 exponent.natAbs
      match digits with
      | [d] => d :: mark
      | d :: rest => d :: '.' :: rest ++ mark
      | [] => mark
  String.ofList chars

end Binary64

end Interlock.Decimal
