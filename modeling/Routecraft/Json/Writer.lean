import Routecraft.Decimal.Plain
import Routecraft.Json.Basic
import Routecraft.Text.Hex

/-!
# Writing JSON

A document on one line without blanks, or indented by two spaces a level. A text escapes the quote, the
backslash and the characters below the space only.

* `compact`, `pretty`: the two forms.
* `ofSingle`, `ofDouble`: the document of a bit pattern, by its shortest digits.
-/

namespace Routecraft.Json

open Decimal Text

/-! ## Numbers -/

def numberText (n : Number) : List Char :=
  let sign := if n.negative then ['-'] else []
  let point := if n.fraction.isEmpty then [] else '.' :: n.fraction
  let exponent := match n.exponent with
    | none => []
    | some e => ['e', if e < 0 then '-' else '+'] ++ Nat.toDigits 10 e.natAbs
  sign ++ n.whole ++ point ++ exponent

/-- A decimal with digits on both sides of the point. -/
def Number.ofPositional (negative : Bool) (d : Scientific) : Number :=
  ⟨negative, d.wholeDigits, if d.fractionDigits.isEmpty then ['0'] else d.fractionDigits, none⟩

/-- The document of a bit pattern by its shortest digits, a tie going to the even one: with an exponent
below the `low`th and above the `high`th power of ten. What is not finite is `null`. -/
def ofFloat (f : Format) (low high : Int) (bits : Nat) : Json :=
  let negative := f.isNegative bits
  match f.decode bits with
  | .finite 0 _ => .number ⟨negative, ['0'], ['0'], none⟩
  | .finite mantissa exponent =>
    let d := shortest f .even mantissa exponent
    if low ≤ d.exponent ∧ d.exponent ≤ high then .number (.ofPositional negative d)
    else .number ⟨negative, d.digits.take 1, d.digits.drop 1, some d.exponent⟩
  | _ => .null

def ofSingle (bits : UInt32) : Json := ofFloat single (-6) 12 bits.toNat

def ofDouble (bits : UInt64) : Json := ofFloat double (-5) 15 bits.toNat

/-! ## Texts -/

def escaped (c : Char) : List Char :=
  if c = '"' then ['\\', '"']
  else if c = '\\' then ['\\', '\\']
  else if c = '\x08' then ['\\', 'b']
  else if c = '\t' then ['\\', 't']
  else if c = '\n' then ['\\', 'n']
  else if c = '\x0c' then ['\\', 'f']
  else if c = '\r' then ['\\', 'r']
  else if c.toNat < 32 then ['\\', 'u'] ++ hexFixed 4 c.toNat
  else [c]

def textLiteral (s : String) : String :=
  s.foldl (fun out c => (escaped c).foldl String.push out) "\"" ++ "\""

/-! ## Documents -/

mutual

def compact : Json → String
  | null => "null"
  | bool true => "true"
  | bool false => "false"
  | number n => String.ofList (numberText n)
  | text s => textLiteral s
  | array items => "[" ++ String.intercalate "," (compactItems items) ++ "]"
  | object members => "\x7b" ++ String.intercalate "," (compactMembers members) ++ "\x7d"
  | unusable => "null"

/-- Each item on one line. -/
def compactItems : List Json → List String
  | [] => []
  | j :: rest => compact j :: compactItems rest

def compactMembers : List (String × Json) → List String
  | [] => []
  | (key, j) :: rest => (textLiteral key ++ ":" ++ compact j) :: compactMembers rest

end

/-- Lines between brackets, each indented one level more than the brackets. -/
def indented (indent openBracket closeBracket : String) (lines : List String) : String :=
  if lines.isEmpty then openBracket ++ closeBracket
  else
    let inner := indent ++ "  "
    openBracket ++ "\n" ++ String.intercalate ",\n" (lines.map (inner ++ ·)) ++ "\n" ++ indent
      ++ closeBracket

mutual

/-- A document with each item and member on lines of its own; `indent` stands before its closing
bracket. -/
def prettyAt (indent : String) : Json → String
  | array items => indented indent "[" "]" (prettyItems (indent ++ "  ") items)
  | object members => indented indent "\x7b" "\x7d" (prettyMembers (indent ++ "  ") members)
  | j => compact j

/-- Each item with its lines. -/
def prettyItems (indent : String) : List Json → List String
  | [] => []
  | j :: rest => prettyAt indent j :: prettyItems indent rest

def prettyMembers (indent : String) : List (String × Json) → List String
  | [] => []
  | (key, j) :: rest => (textLiteral key ++ ": " ++ prettyAt indent j) :: prettyMembers indent rest

end

def pretty (j : Json) : String := prettyAt "" j

end Routecraft.Json
