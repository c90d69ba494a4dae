import Routecraft.Decimal.Reading

/-!
# JSON documents

A document as a tree that keeps the order and the repetitions of members. A number is kept as it is
written. A value that follows the grammar and yet denotes nothing is `unusable`: a text with an
unpaired surrogate, a number beyond the range of the 64 bit format, brackets nested too deeply. It does
no harm where no one looks at it.

* `Number.toInt?`: the value of an integer literal.
* `Number.toDouble?`, `Number.toSingle?`: the bit pattern that a number denotes.
* `Json.isUsable`: whether a tree has no unusable part.
-/

namespace Routecraft

open Decimal

/-- A number as it is written: digits before and behind the point, and an exponent. -/
structure Json.Number where
  negative : Bool
  whole : List Char
  fraction : List Char
  exponent : Option Int
  deriving DecidableEq, Repr

inductive Json where
  | null
  | bool (b : Bool)
  | number (n : Json.Number)
  | text (s : String)
  | array (items : List Json)
  | object (members : List (String × Json))
  | unusable
  deriving Repr, Inhabited

namespace Json

namespace Number

def ofInt (n : Int) : Number := ⟨n < 0, Nat.toDigits 10 n.natAbs, [], none⟩

/-- The value of an integer literal. A zero with a sign is not one: it denotes a negative zero. -/
def toInt? (n : Number) : Option Int :=
  if n.fraction.isEmpty && n.exponent.isNone then
    let m := digitsToNat n.whole
    if n.negative && m == 0 then none else some (if n.negative then -m else m)
  else none

/-! ## The floating point value

A number is read in one pass: the leading digits that fit in 64 bits make up the significand, each
further digit before the point counts as a power of ten, and the significand is then multiplied or
divided by powers of ten in floating point, rounding at each step. -/

/-- The leading digits as a number of 64 bits, and how many digits were left out. -/
def leadingFrom (n : Nat) : List Char → Nat × Nat
  | [] => (n, 0)
  | c :: rest =>
    let next := n * 10 + (c.toNat - '0'.toNat)
    if next < UInt64.size then leadingFrom next rest else (n, rest.length + 1)

/-- A positive 64 bit pattern times or divided by a power of ten. -/
def scaleBy (bits : Nat) (divide : Bool) (power : Nat) : Nat :=
  match double.decode bits with
  | .finite mantissa exponent =>
    let (num, den) := Format.quotient mantissa exponent
    if divide then
      match double.decode (double.ofDecimal 1 power) with
      | .finite m e =>
        let (scaleNum, scaleDen) := Format.quotient m e
        double.round (num * scaleDen) (den * scaleNum)
      | _ => 0
    else
      match double.decode (double.ofDecimal 1 power) with
      | .finite m e =>
        let (scaleNum, scaleDen) := Format.quotient m e
        double.round (num * scaleNum) (den * scaleDen)
      | _ => double.infinity
  | _ => bits

/-- Divides by the largest power of ten until the rest of the exponent is a power itself. -/
def scaleDown (bits : Nat) (exponent : Nat) : Nat :=
  if exponent ≤ 308 then scaleBy bits true exponent
  else if bits = 0 then 0
  else scaleDown (scaleBy bits true 308) (exponent - 308)
termination_by exponent

/-- The magnitude pattern of `significand · 10 ^ exponent`; there is none beyond the largest number. -/
def scale? (significand : Nat) (exponent : Int) : Option Nat :=
  let bits := double.round significand 1
  if exponent < 0 then some (scaleDown bits (-exponent).toNat)
  else if bits = 0 then some 0
  else if 308 < exponent then none
  else
    let product := scaleBy bits false exponent.toNat
    if product = double.infinity then none else some product

/-- The magnitude pattern of the number in the 64 bit format. -/
def magnitude? (n : Number) : Option Nat :=
  let (front, left) := leadingFrom 0 n.whole
  let (significand, dropped) := leadingFrom front n.fraction
  let used := n.fraction.length - dropped
  scale? significand (left - used + n.exponent.getD 0)

/-- An integer literal that 64 bits hold, with or without a sign. -/
def word? (n : Number) : Option Int :=
  n.toInt?.filter fun i => decide (Int64.minValue.toInt ≤ i) && decide (i < UInt64.size)

/-- The 64 bit pattern that the number denotes. -/
def toDouble? (n : Number) : Option UInt64 :=
  match n.word? with
  | some i => some (UInt64.ofNat (double.ofInt i))
  | none => n.magnitude?.map fun m => UInt64.ofNat (double.withSign n.negative m)

/-- The 32 bit pattern that the number denotes: an integer is rounded once, any other number by way of
the 64 bit format. -/
def toSingle? (n : Number) : Option UInt32 :=
  match n.word? with
  | some i => some (UInt32.ofNat (single.ofInt i))
  | none => n.toDouble?.map fun d => UInt32.ofNat (single.convert double d.toNat)

end Number

/-! ## Usable documents -/

mutual

/-- Whether a document has no unusable part. -/
def isUsable : Json → Bool
  | array items => allUsable items
  | object members => allMembersUsable members
  | unusable => false
  | _ => true

def allUsable : List Json → Bool
  | [] => true
  | j :: rest => j.isUsable && allUsable rest

def allMembersUsable : List (String × Json) → Bool
  | [] => true
  | (_, j) :: rest => j.isUsable && allMembersUsable rest

end

mutual

def depth : Json → Nat
  | array items => depthOfItems items + 1
  | object members => depthOfMembers members + 1
  | _ => 0

def depthOfItems : List Json → Nat
  | [] => 0
  | j :: rest => max j.depth (depthOfItems rest)

/-- The depth of the deepest value of a list of members. -/
def depthOfMembers : List (String × Json) → Nat
  | [] => 0
  | (_, j) :: rest => max j.depth (depthOfMembers rest)

end

def int (n : Int) : Json := .number (.ofInt n)

def nat (n : Nat) : Json := .int n

end Json

end Routecraft
