import Routecraft.Decimal.Reading

/-!
# Words as values

Which words are values: truth values, integers, decimals, dates and times. Of numbers and dates only the
form and the range are checked.

* `isNumber`, `isMoment`: whether a word is a number, or a date or time.
-/

namespace Routecraft.Toml

/-! ## Numbers -/

/-- Digits with single underscores between them, without the underscores. -/
def grouped? (isDigit : Char → Bool) : List Char → Option (List Char)
  | [] => none
  | [c] => if isDigit c then some [c] else none
  | c :: '_' :: rest => if isDigit c then (grouped? isDigit rest).map (c :: ·) else none
  | c :: rest => if isDigit c then (grouped? isDigit rest).map (c :: ·) else none

/-- Grouped digits in base ten that do not start with a superfluous zero. -/
def wholeDigits? (cs : List Char) : Option (List Char) := do
  let ds ← grouped? Char.isDigit cs
  if ds.head? = some '0' ∧ ds.length ≠ 1 then none else some ds

/-- The value of a digit of any base. -/
def digitValue (c : Char) : Nat :=
  if c.isDigit then c.toNat - '0'.toNat else c.toLower.toNat - 'a'.toNat + 10

/-- The number of a word of digits in a base. -/
def inBase? (base : Nat) (cs : List Char) : Option Nat := do
  let ds ← grouped? (fun c => c.isAlphanum && digitValue c < base) cs
  return ds.foldl (fun n c => n * base + digitValue c) 0

/-- One more than the largest integer of 64 bits. -/
def integerBound : Nat := UInt64.size / 2

/-- Whether a word is an integer of 64 bits. -/
def isInteger : List Char → Bool
  | '0' :: 'x' :: cs => (inBase? 16 cs).any (· < integerBound)
  | '0' :: 'o' :: cs => (inBase? 8 cs).any (· < integerBound)
  | '0' :: 'b' :: cs => (inBase? 2 cs).any (· < integerBound)
  | cs =>
    let (negative, cs) := Decimal.takeSign cs
    match wholeDigits? cs with
    | some ds => decide (Decimal.digitsToNat ds < integerBound + if negative then 1 else 0)
    | none => false

/-- A digit, or the mark that groups digits. -/
def isGroupedDigit (c : Char) : Bool := c.isDigit || c == '_'

/-- The digits behind a point, if there is one, and what follows them. -/
def fractionOf? : List Char → Option (List Char × List Char)
  | '.' :: cs => do
    let ds ← grouped? Char.isDigit (cs.takeWhile isGroupedDigit)
    return ('.' :: ds, cs.dropWhile isGroupedDigit)
  | cs => some ([], cs)

/-- The exponent that makes up a word, if it is not empty. -/
def exponentOf? : List Char → Option (List Char)
  | [] => some []
  | c :: cs =>
    if c == 'e' || c == 'E' then do
      let (negative, cs) := Decimal.takeSign cs
      return 'e' :: (if negative then '-' else '+') :: (← grouped? Char.isDigit cs)
    else none

/-- Whether a word is a decimal with a point or an exponent, not beyond the largest number. -/
def isDecimal (cs : List Char) : Bool :=
  let (negative, cs) := Decimal.takeSign cs
  let text? : Option (List Char) := do
    let whole ← wholeDigits? (cs.takeWhile isGroupedDigit)
    let (fraction, rest) ← fractionOf? (cs.dropWhile isGroupedDigit)
    let exponent ← exponentOf? rest
    if fraction.isEmpty && exponent.isEmpty then none else some (whole ++ fraction ++ exponent)
  match text? with
  | some text => negative || Decimal.double.read? text != some Decimal.double.infinity
  | none => cs == ['i', 'n', 'f'] || cs == ['n', 'a', 'n']

def isNumber (cs : List Char) : Bool := isInteger cs || isDecimal cs

/-! ## Dates and times -/

/-- A number of two digits between two bounds, and what follows it. -/
def twoDigits? (low high : Nat) : List Char → Option (Nat × List Char)
  | a :: b :: rest =>
    if a.isDigit && b.isDigit then
      let n := Decimal.digitsToNat [a, b]
      if low ≤ n ∧ n ≤ high then some (n, rest) else none
    else none
  | _ => none

/-- What follows a certain character. -/
def after? (c : Char) : List Char → Option (List Char)
  | d :: rest => if d = c then some rest else none
  | [] => none

def daysIn (year month : Nat) : Nat :=
  if month = 2 then
    if year % 4 = 0 ∧ (year % 100 ≠ 0 ∨ year % 400 = 0) then 29 else 28
  else if month = 4 ∨ month = 6 ∨ month = 9 ∨ month = 11 then 30
  else 31

def afterDate? (cs : List Char) : Option (List Char) := do
  let (century, cs) ← twoDigits? 0 99 cs
  let (year, cs) ← twoDigits? 0 99 cs
  let cs ← after? '-' cs
  let (month, cs) ← twoDigits? 1 12 cs
  let cs ← after? '-' cs
  let (_, cs) ← twoDigits? 1 (daysIn (century * 100 + year) month) cs
  return cs

def afterTime? (cs : List Char) : Option (List Char) := do
  let (_, cs) ← twoDigits? 0 23 cs
  let cs ← after? ':' cs
  let (_, cs) ← twoDigits? 0 59 cs
  let cs ← after? ':' cs
  let (_, cs) ← twoDigits? 0 60 cs
  match cs with
  | '.' :: c :: rest => if c.isDigit then some (rest.dropWhile Char.isDigit) else none
  | cs => some cs

/-- Whether a word is an offset from universal time, or empty. -/
def isOffset : List Char → Bool
  | [] => true
  | [c] => c == 'Z' || c == 'z'
  | c :: cs =>
    (c == '+' || c == '-') &&
      ((do
        let (_, cs) ← twoDigits? 0 23 cs
        let cs ← after? ':' cs
        let (_, cs) ← twoDigits? 0 59 cs
        return cs) : Option (List Char)) == some []

/-- Whether a word is a time of day with or without an offset. -/
def isClock (cs : List Char) : Bool := (afterTime? cs).any isOffset

def isDate (cs : List Char) : Bool := afterDate? cs == some []

/-- Whether a word is a date, a time of day, or both. -/
def isMoment (cs : List Char) : Bool :=
  match afterDate? cs with
  | some [] => true
  | some (c :: rest) => (c == 'T' || c == 't') && isClock rest
  | none => afterTime? cs == some []

end Routecraft.Toml
