/-!
# Hexadecimal text

Numbers and byte sequences in base sixteen, with small letters.

* `hexNat`: a number without leading zeros.
* `hexFixed`: a number on a fixed count of digits.
* `hexBytes`, `readBytes?`: two digits a byte.
-/

namespace Routecraft.Text

def hexDigit (n : Nat) : Char := Nat.digitChar (n % 16)

def hexValue? (c : Char) : Option Nat :=
  if '0' ≤ c ∧ c ≤ '9' then some (c.toNat - '0'.toNat)
  else if 'a' ≤ c ∧ c ≤ 'f' then some (c.toNat - 'a'.toNat + 10)
  else if 'A' ≤ c ∧ c ≤ 'F' then some (c.toNat - 'A'.toNat + 10)
  else none

/-- The digits of a number, without leading zeros. -/
def hexNat (n : Nat) : List Char := Nat.toDigits 16 n

/-- The last `count` digits of a number, leading zeros included. -/
def hexFixed : (count n : Nat) → List Char
  | 0, _ => []
  | count + 1, n => hexFixed count (n / 16) ++ [hexDigit n]

/-- The value of a sequence of digits, most significant first. -/
def hexToNat? (cs : List Char) : Option Nat :=
  cs.foldlM (fun n c => (hexValue? c).map (n * 16 + ·)) 0

def hexByte (b : UInt8) : List Char := [hexDigit (b.toNat / 16), hexDigit b.toNat]

def hexBytes (bytes : List UInt8) : String := String.ofList (bytes.flatMap hexByte)

/-- The bytes of a text of digit pairs, read onto the bytes `done` that stand before in reverse. -/
def readBytesOnto : (done : List UInt8) → List Char → Option (List UInt8)
  | done, [] => some done.reverse
  | done, a :: b :: rest =>
    match hexValue? a, hexValue? b with
    | some x, some y => readBytesOnto (UInt8.ofNat (x * 16 + y) :: done) rest
    | _, _ => none
  | _, [_] => none

/-- The bytes that a text of digit pairs stands for. -/
def readBytes? (s : String) : Option (List UInt8) := readBytesOnto [] s.toList

end Routecraft.Text
