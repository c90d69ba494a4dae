/-!
# Binary floating point

The two interchange formats on exact arithmetic. A value is kept as its bit pattern; `Format.decode`
says which number a pattern stands for, and `Format.round` gives the pattern of the nearest number to
a quotient, a tie going to the even pattern and a quotient beyond the largest number to infinity.

* `Format.decode`: sign, and not a number, infinite, or `mantissa · 2 ^ exponent`.
* `Format.round`: the magnitude pattern nearest to `num / den`.
* `Format.ofInt`, `Format.convert`: rounding of an integer, and from one format to another.
-/

namespace Routecraft.Decimal

def pow2 (n : Nat) : Nat := Nat.pow 2 n

def pow10 (n : Nat) : Nat := Nat.pow 10 n

/-- A binary format: the bits of the significand, the leading one included, and of the exponent. -/
structure Format where
  precision : Nat
  exponentBits : Nat
  deriving DecidableEq, Repr

def single : Format := ⟨24, 8⟩

def double : Format := ⟨53, 11⟩

/-- What the magnitude of a bit pattern stands for. -/
inductive Magnitude where
  | nan
  | infinite
  /-- The number `mantissa · 2 ^ exponent`. -/
  | finite (mantissa : Nat) (exponent : Int)
  deriving DecidableEq, Repr

namespace Format

variable (f : Format)

/-- One more than the largest value of the exponent field. -/
def exponentCount : Nat := pow2 f.exponentBits

/-- The exponent of the last place of the smallest numbers. -/
def minExponent : Int := 3 - (pow2 (f.exponentBits - 1) : Nat) - (f.precision : Int)

def infinity : Nat := (f.exponentCount - 1) * pow2 (f.precision - 1)

/-- The pattern of the not-a-number that computations give. -/
def quietNan : Nat := f.infinity + pow2 (f.precision - 2)

def signBit : Nat := pow2 (f.precision + f.exponentBits - 1)

def isNegative (bits : Nat) : Bool := bits / f.signBit % 2 == 1

/-- What a pattern stands for, its sign apart. -/
def decode (bits : Nat) : Magnitude :=
  let fraction := bits % pow2 (f.precision - 1)
  let field := bits / pow2 (f.precision - 1) % f.exponentCount
  if field = f.exponentCount - 1 then
    if fraction = 0 then .infinite else .nan
  else if field = 0 then .finite fraction f.minExponent
  else .finite (fraction + pow2 (f.precision - 1)) (f.minExponent + (field - 1 : Nat))

def withSign (negative : Bool) (magnitude : Nat) : Nat :=
  if negative then f.signBit + magnitude else magnitude

/-- The quotient of two numbers to the nearest integer, a tie to the even one. -/
def divToEven (num den : Nat) : Nat :=
  let q := num / den
  let r := num % den
  if 2 * r < den then q
  else if den < 2 * r then q + 1
  else q + q % 2

/-- The quotient `num / den` in units of `2 ^ exponent`, to the nearest integer. -/
def scaled (num den : Nat) (exponent : Int) : Nat :=
  if exponent < 0 then divToEven (num * pow2 (-exponent).toNat) den
  else divToEven num (den * pow2 exponent.toNat)

/-- Whether `2 ^ k ≤ num / den`. -/
def powLe (num den : Nat) (k : Int) : Bool :=
  if k < 0 then den ≤ num * pow2 (-k).toNat else den * pow2 k.toNat ≤ num

/-- The largest `k` with `2 ^ k ≤ num / den`, for positive `num` and `den`. -/
def log2Quotient (num den : Nat) : Int :=
  let k : Int := (Nat.log2 num : Int) - Nat.log2 den
  if powLe num den k then k else k - 1

/-- The pattern of the number nearest to `num / den`, for a positive `den`. -/
def round (num den : Nat) : Nat :=
  if num = 0 then 0
  else
    let top := log2Quotient num den
    let exponent := max (top - (f.precision - 1 : Nat)) f.minExponent
    let steps := (exponent - f.minExponent).toNat
    if f.exponentCount ≤ steps + 2 then f.infinity
    else min (steps * pow2 (f.precision - 1) + scaled num den exponent) f.infinity

def ofInt (n : Int) : Nat := f.withSign (n < 0) (f.round n.natAbs 1)

/-- A number `mantissa · 2 ^ exponent` as a quotient. -/
def quotient (mantissa : Nat) (exponent : Int) : Nat × Nat :=
  if exponent < 0 then (mantissa, pow2 (-exponent).toNat) else (mantissa * pow2 exponent.toNat, 1)

/-- The pattern of another format's value, rounded. -/
def convert (source : Format) (bits : Nat) : Nat :=
  f.withSign (source.isNegative bits) <|
    match source.decode bits with
    | .nan => f.quietNan
    | .infinite => f.infinity
    | .finite mantissa exponent =>
      let (num, den) := quotient mantissa exponent
      f.round num den

end Format

end Routecraft.Decimal
