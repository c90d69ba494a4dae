import Routecraft.Text.Hex

/-!
# Tokens of TOML

The text of a TOML document cut into tokens. Comments disappear. Blanks stay, because headers and keys
depend on them. A word is whatever is not quoted: a bare key, a part of a dotted key with its dots, a
number, a date, a truth value; what it means is settled where it stands.

* `Token.scan?`: the tokens of a text.
-/

namespace Routecraft.Toml

inductive Token where
  | blanks (chars : List Char)
  | newline
  | word (chars : List Char)
  /-- A quoted text, on one line or between triple quotes. -/
  | quoted (content : String) (oneLine : Bool)
  /-- One of the marks `= , [ ] { }`. -/
  | mark (c : Char)
  deriving DecidableEq, Repr

namespace Token

/-! ## Characters -/

/-- A blank within a line. -/
def isBlank (c : Char) : Bool := c == ' ' || c == '\t'

/-- A character of a comment or a quoted text: no control character but the tabulator. -/
def isPlain (c : Char) : Bool := c == '\t' || (0x20 ≤ c.toNat && c.toNat != 0x7f)

def isWordChar (c : Char) : Bool :=
  c.isAlphanum || c == '_' || c == '-' || c == '+' || c == '.' || c == ':'

def isMark (c : Char) : Bool :=
  c == '=' || c == ',' || c == '[' || c == ']' || c == '\x7b' || c == '\x7d'

/-! ## Quoted texts

Each scanner gives the content and what stands behind the closing quote. The characters read so far are
held in reverse. -/

/-- The character that a letter behind a backslash stands for. -/
def escape? (c : Char) : Option Char :=
  match c with
  | 'b' => some '\x08'
  | 't' => some '\t'
  | 'n' => some '\n'
  | 'f' => some '\x0c'
  | 'r' => some '\r'
  | '"' => some '"'
  | '\\' => some '\\'
  | _ => none

/-- The character with a number in base sixteen, unless it is half of a surrogate pair or too large. -/
def charOf? (digits : List Char) : Option Char := do
  let n ← Text.hexToNat? digits
  if n < 0xd800 ∨ (0xe000 ≤ n ∧ n < 0x110000) then some (Char.ofNat n) else none

/-- Behind a double quote. -/
def basic? (done : List Char) : List Char → Option (String × List Char)
  | [] => none
  | '"' :: rest => some (String.ofList done.reverse, rest)
  | '\\' :: 'u' :: a :: b :: c :: d :: rest => do basic? ((← charOf? [a, b, c, d]) :: done) rest
  | '\\' :: 'U' :: a :: b :: c :: d :: e :: f :: g :: h :: rest => do
    basic? ((← charOf? [a, b, c, d, e, f, g, h]) :: done) rest
  | '\\' :: c :: rest => do basic? ((← escape? c) :: done) rest
  | c :: rest => if isPlain c then basic? (c :: done) rest else none

/-- Behind a single quote. -/
def literal? (done : List Char) : List Char → Option (String × List Char)
  | [] => none
  | '\'' :: rest => some (String.ofList done.reverse, rest)
  | c :: rest => if isPlain c then literal? (c :: done) rest else none

/-- Where a text between triple quotes is at a backslash that ends a line: blanks may follow it, then the
line ends, and then blanks and line ends are passed over. -/
inductive Joining where
  | no
  | lineEnd
  | text
  deriving DecidableEq, Repr

/-- Behind three double quotes. Up to two quotes may stand before the three that close the text. -/
def basicLines? (done : List Char) (joining : Joining) : List Char → Option (String × List Char)
  | [] => none
  | '\r' :: '\n' :: rest =>
    basicLines? (if joining = .no then '\n' :: done else done)
      (if joining = .no then .no else .text) rest
  | c :: rest =>
    if c = '\n' then
      basicLines? (if joining = .no then '\n' :: done else done)
        (if joining = .no then .no else .text) rest
    else if isBlank c && joining != .no then basicLines? done joining rest
    else if joining = .lineEnd then none
    else
      match c, rest with
      | '"', '"' :: '"' :: '"' :: '"' :: rest' =>
        some (String.ofList ('"' :: '"' :: done).reverse, rest')
      | '"', '"' :: '"' :: '"' :: rest' => some (String.ofList ('"' :: done).reverse, rest')
      | '"', '"' :: '"' :: rest' => some (String.ofList done.reverse, rest')
      | '\\', 'u' :: x₁ :: x₂ :: x₃ :: x₄ :: rest' => do
        basicLines? ((← charOf? [x₁, x₂, x₃, x₄]) :: done) .no rest'
      | '\\', 'U' :: x₁ :: x₂ :: x₃ :: x₄ :: x₅ :: x₆ :: x₇ :: x₈ :: rest' => do
        basicLines? ((← charOf? [x₁, x₂, x₃, x₄, x₅, x₆, x₇, x₈]) :: done) .no rest'
      | '\\', e :: rest' =>
        if isBlank e || e == '\r' || e == '\n' then basicLines? done .lineEnd (e :: rest')
        else do basicLines? ((← escape? e) :: done) .no rest'
      | c, rest => if isPlain c then basicLines? (c :: done) .no rest else none

/-- Behind three single quotes. Up to two quotes may stand before the three that close the text. -/
def literalLines? (done : List Char) : List Char → Option (String × List Char)
  | [] => none
  | '\'' :: '\'' :: '\'' :: '\'' :: '\'' :: rest =>
    some (String.ofList ('\'' :: '\'' :: done).reverse, rest)
  | '\'' :: '\'' :: '\'' :: '\'' :: rest => some (String.ofList ('\'' :: done).reverse, rest)
  | '\'' :: '\'' :: '\'' :: rest => some (String.ofList done.reverse, rest)
  | '\r' :: '\n' :: rest => literalLines? ('\n' :: done) rest
  | '\n' :: rest => literalLines? ('\n' :: done) rest
  | c :: rest => if isPlain c then literalLines? (c :: done) rest else none

/-- A line end at the start of a text between triple quotes does not belong to it. -/
def skipFirstLineEnd : List Char → List Char
  | '\n' :: rest => rest
  | '\r' :: '\n' :: rest => rest
  | cs => cs

/-! ## All tokens -/

/-- The first token, if it is not a comment, and what stands behind it. -/
def next? : List Char → Option (Option Token × List Char)
  | '\n' :: rest => some (some newline, rest)
  | '\r' :: '\n' :: rest => some (some newline, rest)
  | '#' :: rest => some (none, rest.dropWhile isPlain)
  | '"' :: '"' :: '"' :: rest =>
    (basicLines? [] .no (skipFirstLineEnd rest)).map fun (s, rest) => (some (quoted s false), rest)
  | '"' :: rest => (basic? [] rest).map fun (s, rest) => (some (quoted s true), rest)
  | '\'' :: '\'' :: '\'' :: rest =>
    (literalLines? [] (skipFirstLineEnd rest)).map fun (s, rest) => (some (quoted s false), rest)
  | '\'' :: rest => (literal? [] rest).map fun (s, rest) => (some (quoted s true), rest)
  | c :: rest =>
    if isMark c then some (some (mark c), rest)
    else if isBlank c then
      some (some (blanks (c :: rest.takeWhile isBlank)), rest.dropWhile isBlank)
    else if isWordChar c then
      some (some (word (c :: rest.takeWhile isWordChar)), rest.dropWhile isWordChar)
    else none
  | [] => none

/-- At most `fuel` tokens and comments, onto those before them in reverse. -/
def scanOnto? (done : List Token) : (fuel : Nat) → List Char → Option (List Token)
  | _, [] => some done.reverse
  | 0, _ => none
  | fuel + 1, cs =>
    match next? cs with
    | some (some t, rest) => scanOnto? (t :: done) fuel rest
    | some (none, rest) => scanOnto? done fuel rest
    | none => none

/-- The tokens of a text. A mark for the byte order may stand at its start. -/
def scan? (cs : List Char) : Option (List Token) :=
  let cs := if cs.head? = some '\ufeff' then cs.tail else cs
  scanOnto? [] cs.length cs

end Token

end Routecraft.Toml
