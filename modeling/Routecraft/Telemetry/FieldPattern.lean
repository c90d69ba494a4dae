import Routecraft.Decimal.Reading

/-!
# Patterns for fields

A filter can name the value that a field has to have: as a number, or as a pattern that the value has to match.
Here is only whether a text can be read as one.

* `isFieldValue`: a number, or a pattern whose groups and classes close and whose repetition signs have something
  to repeat.
-/

namespace Routecraft.FieldPattern

/-- The letters that mean something behind a backslash. -/
def escapeLetters : List Char := "dDsSwWaftnrvAzxuUpP".toList

/-- Whether a character can stand behind a backslash. -/
def isEscapable (c : Char) : Bool :=
  escapeLetters.contains c || (c.toNat < 128 && !c.isAlphanum && c != '<' && c != '>')

/-- Whether the rest of a pattern is well formed while `groups` groups and `classes` classes are open.
`operand` says whether there is something in front that a sign can repeat. -/
def closes (groups classes : Nat) (operand : Bool) : List Char → Bool
  | [] => groups == 0 && classes == 0
  | '\\' :: rest =>
    match rest with
    | c :: rest => isEscapable c && closes groups classes true rest
    | [] => false
  | c :: rest =>
    match classes, groups with
    | inner + 1, _ =>
      if c = '[' then closes groups (inner + 2) true rest
      else if c = ']' then closes groups inner true rest
      else closes groups (inner + 1) true rest
    | 0, groups =>
      if c = '[' then
        -- A bracket that closes nothing is part of the class.
        match rest with
        | ']' :: rest => closes groups 1 true rest
        | '^' :: ']' :: rest => closes groups 1 true rest
        | rest => closes groups 1 true rest
      else if c = '(' then
        match rest with
        | '?' :: rest => closes (groups + 1) 0 false rest
        | rest => closes (groups + 1) 0 false rest
      else if c = ')' then groups != 0 && closes (groups - 1) 0 true rest
      else if c = '|' then closes groups 0 false rest
      else if c = '*' || c = '+' || c = '?' then operand && closes groups 0 true rest
      else c != '\x7b' && closes groups 0 true rest

/-- Whether a text is a pattern. -/
def isPattern (cs : List Char) : Bool := closes 0 0 false cs

/-- Whether a text is the value of a field, as a number or a pattern. -/
def isFieldValue (cs : List Char) : Bool :=
  (Decimal.double.read? cs).isSome || isPattern cs

end Routecraft.FieldPattern
