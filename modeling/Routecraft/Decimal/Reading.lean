import Routecraft.Decimal.Binary

/-!
# Reading numbers

The numbers that a text stands for: integers in a range, and decimals correctly rounded to a binary
format. There is no room for blanks, and no other spelling than the ones given here.

* `readInt?`: an optional sign and digits.
* `Format.read?`: an optional sign and then digits with an optional point and exponent, or one of the
  words for infinity and not-a-number in any case.
-/

namespace Routecraft.Decimal

def digitsToNat (cs : List Char) : Nat := cs.foldl (fun n c => n * 10 + (c.toNat - '0'.toNat)) 0

/-- The sign in front of a text, and the rest of it. -/
def takeSign : List Char → Bool × List Char
  | '+' :: rest => (false, rest)
  | '-' :: rest => (true, rest)
  | cs => (false, cs)

/-- An optional sign and at least one digit. -/
def readInt? (cs : List Char) : Option Int :=
  let (negative, digits) := takeSign cs
  if digits.isEmpty || !digits.all Char.isDigit then none
  else
    let n : Int := digitsToNat digits
    some (if negative then -n else n)

def readIntIn? (low high : Int) (cs : List Char) : Option Int :=
  (readInt? cs).filter fun n => decide (low ≤ n) && decide (n ≤ high)

/-- The exponent at the end of a decimal: nothing, or a mark and an integer. -/
def readExponent? : List Char → Option Int
  | [] => some 0
  | c :: rest => if c == 'e' || c == 'E' then readInt? rest else none

/-- The decimal `digits · 10 ^ exponent`: digits with an optional point among them, and an optional
exponent. -/
def readDecimal? (cs : List Char) : Option (Nat × Int) := do
  let whole := cs.takeWhile Char.isDigit
  let (fraction, rest) := match cs.dropWhile Char.isDigit with
    | '.' :: rest => (rest.takeWhile Char.isDigit, rest.dropWhile Char.isDigit)
    | rest => ([], rest)
  if whole.isEmpty && fraction.isEmpty then none
  else
    let exponent ← readExponent? rest
    some (digitsToNat (whole ++ fraction), exponent - fraction.length)

namespace Format

/-- The magnitude pattern nearest to `n · 10 ^ exponent`. Exponents far outside the format are not
computed with: a number of `d` digits is below `10 ^ d`. -/
def ofDecimal (f : Format) (n : Nat) (exponent : Int) : Nat :=
  if n = 0 then 0
  else if 400 < exponent then f.infinity
  else if exponent + (Nat.toDigits 10 n).length < -400 then 0
  else if exponent < 0 then f.round n (pow10 (-exponent).toNat)
  else f.round (n * pow10 exponent.toNat) 1

/-- The pattern of the number that a text stands for. -/
def read? (f : Format) (cs : List Char) : Option Nat :=
  let (negative, body) := takeSign cs
  let word := String.ofList (body.map Char.toLower)
  if word == "inf" || word == "infinity" then some (f.withSign negative f.infinity)
  else if word == "nan" then some (f.withSign negative f.quietNan)
  else (readDecimal? body).map fun (n, exponent) => f.withSign negative (f.ofDecimal n exponent)

end Format

end Routecraft.Decimal
