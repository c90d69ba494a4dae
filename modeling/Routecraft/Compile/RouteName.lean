import Routecraft.Route.Controller
import Routecraft.Text.Hex

/-!
# The names of units

A handler is named for what tells its endpoint from all others: the controller, the verb, the pattern and
the names of the parameters. Characters other than ASCII letters and digits are written as an underscore
and a letter or a number, so that the parts can be put together with dollar signs and taken apart again.
Dots stay in class and parameter names, and are escaped in patterns.

* `RouteName.render`, `RouteName.parse?`: the name and the parts.
* `registrationName`: the name of the unit that registers a controller.
-/

namespace Routecraft.Compile

/-- What tells an endpoint from all others. -/
structure RouteName where
  owner : String
  verb : Verb
  pattern : String
  params : List String
  deriving DecidableEq, Repr

namespace RouteName

/-! ## Escapes -/

/-- The characters with an escape of their own, each with its letter. -/
def letters : List (Char × Char) :=
  [('/', 's'), ('\x7b', 'o'), ('\x7d', 'c'), ('_', 'u'), ('-', 'd'), ('.', 'p'), ('*', 'w'), (':', 'k')]

/-- The letter that stands for a character. -/
def letter? (c : Char) : Option Char := letters.lookup c

def ofLetter? (l : Char) : Option Char := (letters.find? (·.2 == l)).map (·.1)

/-- Whether a character stays as it is. -/
def isPlain (keepDots : Bool) (c : Char) : Bool := c.isAlphanum || (keepDots && c == '.')

def escapeChar (keepDots : Bool) (c : Char) : List Char :=
  if isPlain keepDots c then [c]
  else
    match letter? c with
    | some l => ['_', l]
    | none => ['_', 'x'] ++ Text.hexNat c.toNat ++ ['_']

def escape (keepDots : Bool) (cs : List Char) : List Char := cs.flatMap (escapeChar keepDots)

/-- The character that the digits of a numeric escape stand for; there is none for other spellings than
the one that `escapeChar` uses. -/
def ofDigits? (keepDots : Bool) (digits : List Char) : Option Char := do
  let n ← Text.hexToNat? digits
  if n.isValidChar then
    let c := Char.ofNat n
    if escapeChar keepDots c = ['_', 'x'] ++ digits ++ ['_'] then some c else none
  else none

def unescape? (keepDots : Bool) : List Char → Option (List Char)
  | [] => some []
  | '_' :: 'x' :: rest =>
    match h : rest.dropWhile (· != '_') with
    | [] => none
    | _ :: rest' =>
      have : rest'.length < rest.length := by
        have := (List.dropWhile_sublist (l := rest) (· != '_')).length_le
        rw [h] at this
        exact this
      do
        let c ← ofDigits? keepDots (rest.takeWhile (· != '_'))
        (unescape? keepDots rest').map (c :: ·)
  | '_' :: l :: rest => do
    let c ← ofLetter? l
    if isPlain keepDots c then none else (unescape? keepDots rest).map (c :: ·)
  | c :: rest =>
    if isPlain keepDots c then (unescape? keepDots rest).map (c :: ·) else none
termination_by cs => cs.length

/-! ## Names -/

/-- The characters of a name: the owner, the verb with the pattern, and the parameters, separated by
dollar signs. -/
def renderChars (r : RouteName) : List Char :=
  escape true r.owner.toList ++ '$' :: r.verb.name.toList ++ escape false r.pattern.toList
    ++ r.params.flatMap fun p => '$' :: escape true p.toList

def render (r : RouteName) : String := String.ofList r.renderChars

/-- What follows `front` in a text that begins with it. -/
def after? : (front cs : List Char) → Option (List Char)
  | [], cs => some cs
  | _ :: _, [] => none
  | a :: front, c :: cs => if a = c then after? front cs else none

def verbAndPattern? (cs : List Char) : Option (Verb × String) :=
  Verb.all.findSome? fun verb => do
    let rest ← after? verb.name.toList cs
    (unescape? false rest).map fun pattern => (verb, String.ofList pattern)

def parse? (name : String) : Option RouteName :=
  match name.toList.splitOn '$' with
  | owner :: route :: params => do
    let owner ← unescape? true owner
    let (verb, pattern) ← verbAndPattern? route
    let params ← params.mapM (unescape? true)
    some ⟨String.ofList owner, verb, pattern, params.map String.ofList⟩
  | _ => none

def of (e : Endpoint) : RouteName := ⟨e.owner, e.verb, e.pattern, e.paramNames⟩

end RouteName

def handlerName (e : Endpoint) : String := (RouteName.of e).render

def registrationName (controller : String) : String :=
  String.ofList (RouteName.escape true controller.toList) ++ "$Routes"

end Routecraft.Compile
