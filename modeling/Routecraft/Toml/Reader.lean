import Routecraft.Toml.Scalar
import Routecraft.Toml.Table
import Routecraft.Toml.Token

/-!
# Reading TOML

A document is a sequence of lines: headers, keys with values, blank ones. Only a value may go on over the
end of a line. Numbers, dates and times are checked and then `unusable`: the settings that are read this
way have no use for them.

* `read?`: the document that a text is, as a tree.
-/

namespace Routecraft.Toml

open Token

/-- The deepest nesting of brackets, and the length of a dotted key. -/
def maxDepth : Nat := 79

def skipBlanks : List Token → List Token
  | blanks _ :: ts => skipBlanks ts
  | ts => ts

def skipLines : List Token → List Token
  | blanks _ :: ts => skipLines ts
  | newline :: ts => skipLines ts
  | ts => ts

/-! ## Keys -/

/-- A piece of a key: a name, or a dot between names. -/
inductive KeyPiece where
  | name (s : String)
  | dot
  deriving DecidableEq, Repr

/-- A character of a name without quotes. -/
def isBareChar (c : Char) : Bool := c.isAlphanum || c == '_' || c == '-'

/-- The pieces of a word, in front of others; `name` holds the name that is being read, in reverse. -/
def wordPieces? (name : List Char) : List Char → Option (List KeyPiece)
  | [] => some (if name.isEmpty then [] else [.name (String.ofList name.reverse)])
  | c :: cs =>
    if c = '.' then do
      let rest ← wordPieces? [] cs
      return (if name.isEmpty then [] else [.name (String.ofList name.reverse)]) ++ .dot :: rest
    else if isBareChar c then wordPieces? (c :: name) cs
    else none

/-- The pieces of a token of a key; blanks have none. -/
def pieces? : Token → Option (List KeyPiece)
  | word cs => wordPieces? [] cs
  | quoted s true => some [.name s]
  | blanks _ => some []
  | _ => none

/-- The names of a key, between which there are dots. -/
def names? : List KeyPiece → Option (List String)
  | [.name s] => some [s]
  | .name s :: .dot :: rest => (names? rest).map (s :: ·)
  | _ => none

/-- Whether a token may be part of a key. -/
def inKey : Token → Bool
  | word _ => true
  | quoted _ true => true
  | blanks _ => true
  | _ => false

/-- The names of a key and its last name, up to a mark, and what stands behind the mark. -/
def key? (closing : Char) (ts : List Token) : Option (List String × String × List Token) := do
  let pieces ← (ts.takeWhile inKey).mapM pieces?
  let names ← names? pieces.flatten
  if maxDepth < names.length then none
  else
    match ts.dropWhile inKey with
    | mark c :: rest =>
      if c = closing then return (names.dropLast, ← names.getLast?, rest) else none
    | _ => none

/-! ## Values -/

def wordValue? (cs : List Char) : Option Json :=
  if cs = ['t', 'r', 'u', 'e'] then some (.bool true)
  else if cs = ['f', 'a', 'l', 's', 'e'] then some (.bool false)
  else if isNumber cs || isMoment cs then some .unusable
  else none

mutual

/-- A value, and what stands behind it. Brackets may be nested `room` deep. -/
def value? (room : Nat) : (fuel : Nat) → List Token → Option (Json × List Token)
  | 0, _ => none
  | fuel + 1, ts =>
    match ts with
    | quoted s _ :: ts => some (.text s, ts)
    -- One blank may stand between a date and a time of day.
    | word date :: blanks [' '] :: word clock :: ts =>
      if isDate date && isClock clock then some (.unusable, ts)
      else (wordValue? date).map (·, blanks [' '] :: word clock :: ts)
    | word cs :: ts => (wordValue? cs).map (·, ts)
    | mark c :: ts =>
      match room with
      | 0 => none
      | room + 1 =>
        if c = '[' then
          match skipLines ts with
          | mark ']' :: ts => some (.array [], ts)
          | ts => (items? room [] fuel ts).map fun (js, ts) => (.array js, ts)
        else if c = '\x7b' then
          match skipBlanks ts with
          | mark '\x7d' :: ts => some (.object [], ts)
          | ts => (members? room [] fuel ts).map fun (es, ts) =>
              (.object (Node.entriesToJson es), ts)
        else none
    | _ => none

/-- The items of an array up to its closing bracket, onto those read before in reverse. -/
def items? (room : Nat) (done : List Json) :
    (fuel : Nat) → List Token → Option (List Json × List Token)
  | 0, _ => none
  | fuel + 1, ts => do
    let (j, ts) ← value? room fuel (skipLines ts)
    match skipLines ts with
    | mark ']' :: ts => return ((j :: done).reverse, ts)
    | mark ',' :: ts =>
      match skipLines ts with
      | mark ']' :: ts => return ((j :: done).reverse, ts)
      | ts => items? room (j :: done) fuel ts
    | _ => none

/-- The members of a table between braces, onto those read before. They stand on one line, and no comma
follows the last one. -/
def members? (room : Nat) (done : List (String × Node)) :
    (fuel : Nat) → List Token → Option (List (String × Node) × List Token)
  | 0, _ => none
  | fuel + 1, ts => do
    let (path, name, ts) ← key? '=' ts
    let (j, ts) ← value? room fuel (skipBlanks ts)
    let done ← Node.define? path name j done
    match skipBlanks ts with
    | mark '\x7d' :: ts => return (done, ts)
    | mark ',' :: ts => members? room done fuel ts
    | _ => none

end

/-! ## Documents -/

/-- A document that is being read: its tables, and the path to the table that keys go to. -/
structure Draft where
  entries : List (String × Node)
  path : List String

/-- Gives a key of the current table a value. -/
def Draft.define? (d : Draft) (path : List String) (name : String) (j : Json) : Option Draft := do
  let entries ← Node.descend? false
    (fun _ entries => Node.define? path name j entries) d.path .written d.entries
  return { d with entries }

/-- What stands behind the end of a line. -/
def lineEnd? (ts : List Token) : Option (List Token) :=
  match skipBlanks ts with
  | [] => some []
  | newline :: ts => some ts
  | _ => none

/-- Reads one line that is not blank. -/
def line? (d : Draft) (ts : List Token) : Option (Draft × List Token) := do
  match ts with
  | mark '[' :: mark '[' :: ts =>
    let (path, name, ts) ← key? ']' ts
    match ts with
    | mark ']' :: ts =>
      let entries ← Node.openItem? path name d.entries
      return (⟨entries, path ++ [name]⟩, ← lineEnd? ts)
    | _ => none
  | mark '[' :: ts =>
    let (path, name, ts) ← key? ']' ts
    let entries ← Node.open? path name d.entries
    return (⟨entries, path ++ [name]⟩, ← lineEnd? ts)
  | ts =>
    let (path, name, ts) ← key? '=' ts
    -- Each call takes a token or leads to one that does.
    let (j, ts) ← value? maxDepth (2 * ts.length + 2) (skipBlanks ts)
    return (← d.define? path name j, ← lineEnd? ts)

/-- Reads at most `fuel` lines. -/
def lines? (d : Draft) : (fuel : Nat) → List Token → Option Draft
  | 0, _ => none
  | fuel + 1, ts =>
    match skipLines ts with
    | [] => some d
    | ts => do
      let (d, ts) ← line? d ts
      lines? d fuel ts

def read? (s : String) : Option Json := do
  let ts ← Token.scan? s.toList
  let d ← lines? ⟨[], []⟩ (ts.length + 1) ts
  return .object (Node.entriesToJson d.entries)

end Routecraft.Toml
