import Routecraft.Decimal.Binary

/-!
# Shortest decimals

The decimal with the fewest digits among those that read back as a given floating point number, and
of the decimals of that many digits the one nearest to it.

A number lies in an interval of reals that all round to it; the ends belong to it if its mantissa is
even. For one digit, two digits and so on, the two neighbours of the number on the grid of decimals
with so many digits are tried; the first grid with a neighbour in the interval gives the answer.
-/

namespace Routecraft.Decimal

/-- Where a number goes that lies midway between two decimals. -/
inductive Tie where
  | up
  | even
  deriving DecidableEq, Repr

/-- The decimal `d₁.d₂d₃… · 10 ^ exponent`. -/
structure Scientific where
  digits : List Char
  exponent : Int
  deriving DecidableEq, Repr

def digitCount (n : Nat) : Nat := (Nat.toDigits 10 n).length

/-- The largest `k` with `10 ^ k ≤ num / den`, for positive `num` and `den`. -/
def log10Quotient (num den : Nat) : Int :=
  if den ≤ num then (digitCount (num / den) : Int) - 1
  else
    let ceiling := (den + num - 1) / num
    (0 : Int) - digitCount (ceiling - 1)

/-- A number with the interval that rounds to it, over one denominator. -/
structure Interval where
  low : Nat
  value : Nat
  high : Nat
  den : Nat
  /-- Whether the ends belong to the interval. -/
  closed : Bool

namespace Interval

/-- The interval of `mantissa · 2 ^ exponent` in a format. -/
def of (f : Format) (mantissa : Nat) (exponent : Int) : Interval :=
  let half := if mantissa = pow2 (f.precision - 1) ∧ f.minExponent < exponent then 1 else 2
  let (unit, den) := Format.quotient 1 (exponent - 2)
  { low := (4 * mantissa - half) * unit
    value := 4 * mantissa * unit
    high := (4 * mantissa + 2) * unit
    den := den
    closed := mantissa % 2 == 0 }

/-- Whether the decimal `n · 10 ^ k` lies in the interval. -/
def holds (i : Interval) (n : Nat) (k : Int) : Bool :=
  let (x, scale) := if k < 0 then (n * i.den, pow10 (-k).toNat) else (n * pow10 k.toNat * i.den, 1)
  if i.closed then i.low * scale ≤ x && x ≤ i.high * scale
  else i.low * scale < x && x < i.high * scale

/-- The decimal with last place `10 ^ k` in the interval that is nearest to the value. -/
def onGrid? (i : Interval) (tie : Tie) (k : Int) : Option Nat :=
  let (num, den) :=
    if k < 0 then (i.value * pow10 (-k).toNat, i.den) else (i.value, i.den * pow10 k.toNat)
  let below := num / den
  let rest := num % den
  let upFirst := den < 2 * rest || (2 * rest == den && (tie == .up || below % 2 == 1))
  let (first, second) := if upFirst then (below + 1, below) else (below, below + 1)
  if i.holds first k then some first
  else if i.holds second k then some second
  else none

/-- Tries the grids of `n`, `n + 1`, … digits; `top` is the place of the value's first digit. -/
def search (i : Interval) (tie : Tie) (top : Int) : (tries n : Nat) → Nat × Int
  | 0, n => (i.value / i.den, top - n)
  | tries + 1, n =>
    let k := top - (n : Int) + 1
    match i.onGrid? tie k with
    | some d => (d, k)
    | none => search i tie top tries (n + 1)

end Interval

/-- The digits of `n · 10 ^ k` without trailing zeros. -/
def Scientific.ofNat (n : Nat) (k : Int) : Scientific :=
  let digits := Nat.toDigits 10 n
  { digits := (digits.reverse.dropWhile (· == '0')).reverse
    exponent := k + digits.length - 1 }

/-- The shortest decimal of a positive number `mantissa · 2 ^ exponent`. -/
def shortest (f : Format) (tie : Tie) (mantissa : Nat) (exponent : Int) : Scientific :=
  let i := Interval.of f mantissa exponent
  let (n, k) := i.search tie (log10Quotient i.value i.den) 20 1
  Scientific.ofNat n k

end Routecraft.Decimal
