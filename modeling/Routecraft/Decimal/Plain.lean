import Routecraft.Decimal.Shortest

/-!
# Plain decimals

Floating point numbers written out by their shortest digits around a point, whatever their size: no
exponent, no point behind an integer, and words for infinity and not-a-number.

* `Scientific.wholeDigits`, `Scientific.fractionDigits`: the digits before and behind the point.
* `plainSingle`, `plainDouble`: the text of a bit pattern.
-/

namespace Routecraft.Decimal

namespace Scientific

variable (d : Scientific)

/-- The digits before the point, at least one. -/
def wholeDigits : List Char :=
  if d.exponent < 0 then ['0']
  else
    let count := d.exponent.toNat + 1
    d.digits.take count ++ List.replicate (count - d.digits.length) '0'

/-- The digits behind the point, none for an integer. -/
def fractionDigits : List Char :=
  if d.exponent < 0 then List.replicate (-d.exponent - 1).toNat '0' ++ d.digits
  else d.digits.drop (d.exponent.toNat + 1)

end Scientific

def plain (f : Format) (bits : Nat) : List Char :=
  let sign := if f.isNegative bits then ['-'] else []
  match f.decode bits with
  | .nan => ['N', 'a', 'N']
  | .infinite => sign ++ ['i', 'n', 'f']
  | .finite 0 _ => sign ++ ['0']
  | .finite mantissa exponent =>
    let d := shortest f .up mantissa exponent
    let point := if d.fractionDigits.isEmpty then [] else '.' :: d.fractionDigits
    sign ++ d.wholeDigits ++ point

def plainSingle (bits : UInt32) : String := String.ofList (plain single bits.toNat)

def plainDouble (bits : UInt64) : String := String.ofList (plain double bits.toNat)

end Routecraft.Decimal
