import Routecraft.Files.Tree
import Routecraft.Text.Alphanumeric
import Routecraft.Text.Blank

/-!
# Environment variables

Variables by name, and files that set more of them. A file holds entries `NAME=value`, with `export` in front or
not, and with comments. Quotes in a value reach over the ends of lines. Between single quotes all characters
stand for themselves; elsewhere a backslash escapes, and a dollar sign with a name, in braces or not, stands for
the value of that variable.

* `entries`: the entries of a file as they are written.
* `readEntry?`, `readValue?`: the name and the value of an entry.
* `Environment.withText`: sets the variables of a text that are not set yet, up to the first entry that cannot be
  read.
-/

namespace Routecraft

open Files

/-- Environment variables by name, no name twice. -/
abbrev Environment := List (String × String)

namespace Environment

def set (env : Environment) (name value : String) : Environment :=
  if env.any (·.1 == name) then
    env.map fun (n, v) => if n == name then (n, value) else (n, v)
  else env ++ [(name, value)]

/-- The value of a variable; one that is not set is empty. -/
def valueOf (env : Environment) (name : List Char) : List Char :=
  ((env.lookup (String.ofList name)).getD "").toList

/-! ## Entries -/

/-- What stands around the next character, as far as the end of an entry depends on it. -/
inductive Surrounding where
  | plain
  | blank
  | escape
  | single
  | singleEscape
  | double
  | doubleEscape
  | comment
  deriving DecidableEq, Repr

/-- What stands around the characters behind a character. The second of two blanks counts as plain text. -/
def Surrounding.next (s : Surrounding) (c : Char) : Surrounding :=
  match s with
  | plain =>
    if c == '\\' then escape
    else if c == '"' then double
    else if c == '\'' then single
    else if Text.isBlank c && c != '\n' && c != '\r' then blank
    else plain
  | blank =>
    if c == '#' then comment
    else if c == '\\' then escape
    else if c == '"' then double
    else if c == '\'' then single
    else plain
  | escape => plain
  | single => if c == '\\' then singleEscape else if c == '\'' then plain else single
  | singleEscape => single
  | double => if c == '\\' then doubleEscape else if c == '"' then plain else double
  | doubleEscape => double
  | comment => comment

/-- What stands behind a line, and the part of the line in front of a comment. -/
def scanLine (s : Surrounding) : List Char → Surrounding × List Char
  | [] => (s, [])
  | c :: rest =>
    match s.next c with
    | .comment => (.comment, [])
    | s =>
      let (last, kept) := scanLine s rest
      (last, c :: kept)

/-- The lines of a text, each with its end. -/
def linesOf : List Char → List (List Char)
  | [] => []
  | c :: rest =>
    if c = '\n' then [c] :: linesOf rest
    else
      match linesOf rest with
      | [] => [[c]]
      | line :: lines => (c :: line) :: lines

/-- The entries on some lines, behind a part of an entry. An entry that does not end is `none`. -/
def entriesFrom (begun : List Char) (s : Surrounding) :
    List (List Char) → List (Option (List Char))
  | [] => if s = .plain then [] else [none]
  | line :: rest =>
    if ((begun ++ line).dropWhile Text.isBlank).head? = some '#' then entriesFrom [] .plain rest
    else
      match scanLine s line with
      | (.plain, _) => some (begun ++ line) :: entriesFrom [] .plain rest
      | (.comment, kept) => some (begun ++ kept) :: entriesFrom [] .plain rest
      | (s, _) => entriesFrom (begun ++ line) s rest

/-- The entries of a text. A byte order mark in front does not count. -/
def entries (text : String) : List (Option (List Char)) :=
  entriesFrom [] .plain (linesOf (match text.toList with
    | '\ufeff' :: rest => rest
    | cs => cs))

/-! ## Names and values -/

/-- A name and what is behind it and the blanks. -/
def takeName? (cs : List Char) : Option (List Char × List Char) :=
  let isNameChar (c : Char) : Bool := c.isAlphanum || c == '_' || c == '.'
  match cs with
  | c :: _ =>
    if c.isAlpha || c == '_' then
      some (cs.takeWhile isNameChar, (cs.dropWhile isNameChar).dropWhile Text.isBlank)
    else none
  | [] => none

/-- What is behind an equals sign and the blanks. -/
def afterEquals? : List Char → Option (List Char)
  | '=' :: rest => some (rest.dropWhile Text.isBlank)
  | _ => none

/-- The name in an entry and the text of its value. -/
def splitEntry? (entry : List Char) : Option (List Char × List Char) := do
  let (name, rest) ← takeName? entry
  match afterEquals? rest with
  | some value => return (name, value)
  | none =>
    if name = "export".toList then
      let (name, rest) ← takeName? rest
      return (name, ← afterEquals? rest)
    else none

/-- What the next character of a value belongs to. -/
inductive ValuePart where
  | text (quoted : Bool)
  | escape (quoted : Bool)
  | single
  /-- The name behind a dollar sign, as far as it is read. -/
  | name (quoted : Bool) (read : List Char)
  | braced (quoted : Bool) (read : List Char)
  /-- What is behind a value. -/
  | done
  deriving DecidableEq, Repr

/-- The value that the rest of an entry stands for. The character that ends a name without braces is taken as it
is. -/
def valueFrom (env : Environment) : ValuePart → List Char → Option (List Char)
  | .text quoted, [] | .escape quoted, [] => if quoted then none else some []
  | .name quoted read, [] => if quoted then none else some (env.valueOf read)
  | .single, [] | .braced _ _, [] => none
  | .done, [] => some []
  | .done, c :: rest =>
    if c = ' ' || c = '\t' then valueFrom env .done rest
    else if c = '#' then some []
    else none
  | .escape quoted, c :: rest =>
    if c = '\\' || c = '\'' || c = '"' || c = '$' || c = ' ' then
      (valueFrom env (.text quoted) rest).map (c :: ·)
    else if c = 'n' then (valueFrom env (.text quoted) rest).map ('\n' :: ·)
    else none
  | .single, c :: rest =>
    if c = '\'' then valueFrom env (.text false) rest
    else (valueFrom env .single rest).map (c :: ·)
  | .name quoted read, c :: rest =>
    if Text.isAlphanumeric c then valueFrom env (.name quoted (read ++ [c])) rest
    else if c = '\x7b' && read.isEmpty then valueFrom env (.braced quoted []) rest
    else if c = '$' then (valueFrom env (.name quoted []) rest).map (env.valueOf read ++ ·)
    else (valueFrom env (.text quoted) rest).map (env.valueOf read ++ c :: ·)
  | .braced quoted read, c :: rest =>
    if c = '\x7d' then (valueFrom env (.text quoted) rest).map (env.valueOf read ++ ·)
    else valueFrom env (.braced quoted (read ++ [c])) rest
  | .text quoted, c :: rest =>
    if c = '$' then valueFrom env (.name quoted []) rest
    else if c = '\\' then valueFrom env (.escape quoted) rest
    else if c = '"' then valueFrom env (.text !quoted) rest
    else if quoted then (valueFrom env (.text true) rest).map (c :: ·)
    else if c = '\'' then valueFrom env .single rest
    else if c = ' ' || c = '\t' then valueFrom env .done rest
    else (valueFrom env (.text false) rest).map (c :: ·)

/-- The value that the text of a value stands for. -/
def readValue? (env : Environment) (cs : List Char) : Option String :=
  if cs.head? = some '#' then some "" else (valueFrom env (.text false) cs).map String.ofList

def readEntry? (env : Environment) (entry : List Char) : Option (String × String) := do
  let (name, value) ← splitEntry? entry
  return (String.ofList name, ← readValue? env value)

/-! ## Files -/

/-- Sets the variables of some entries that are not set yet. -/
def withEntries (env : Environment) : List (Option (List Char)) → Environment
  | [] | none :: _ => env
  | some entry :: rest =>
    match Text.trimChars entry with
    | [] => withEntries env rest
    | entry =>
      match env.readEntry? entry with
      | some (name, value) =>
        if env.any (·.1 == name) then withEntries env rest
        else withEntries (env ++ [(name, value)]) rest
      | none => env

/-- Sets the variables of a text that are not set yet. -/
def withText (env : Environment) (text : String) : Environment := env.withEntries (entries text)

def dotenvName : String := ".env"

/-- Sets the variables of the file in the working directory that are not set yet, if there is one. -/
def withDotenv (env : Environment) (t : FileTree) : Environment :=
  match t.readText dotenvName with
  | .ok text => env.withText text
  | .error _ => env

/-- The names behind the dollar signs of a text. -/
def referredNames : List Char → List String
  | [] => []
  | '$' :: '\x7b' :: rest => String.ofList (rest.takeWhile (· != '\x7d')) :: referredNames rest
  | '$' :: rest => String.ofList (rest.takeWhile Text.isAlphanumeric) :: referredNames rest
  | _ :: rest => referredNames rest

end Environment

end Routecraft
