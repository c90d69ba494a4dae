import Routecraft.Json.Basic

/-!
# Tables of TOML

Tables under construction. A key with dots makes the tables on its way, and so does a header; which of them
may be entered again, and by what, depends on how they came about.

* `Node.define?`: gives a key a value, by a path of dotted keys.
* `Node.open?`, `Node.openItem?`: the table of a header, the new table of a header in double brackets.
* `Node.toJson`: the finished document.
-/

namespace Routecraft.Toml

/-- How a table came about. -/
inductive Origin where
  /-- By its own header, or as a whole. -/
  | written
  /-- On the way of a header to another table. -/
  | implied
  /-- On the way of a dotted key. -/
  | dotted
  deriving DecidableEq, Repr

/-- What a key stands for. -/
inductive Node where
  /-- A finished value. -/
  | value (j : Json)
  | table (origin : Origin) (entries : List (String × Node))
  /-- The tables of headers in double brackets, the last one first. -/
  | tables (items : List (List (String × Node)))
  deriving Inhabited

namespace Node

def empty (origin : Origin) : Node := table origin []

/-- Puts an entry in place of the one with its key, or at the end. -/
def put (entries : List (String × Node)) (key : String) (n : Node) : List (String × Node) :=
  if entries.any (·.1 == key) then
    entries.map fun (k, m) => if k == key then (k, n) else (k, m)
  else entries ++ [(key, n)]

/-- Changes an entry, or the empty one that `fresh` gives if there is none. -/
def change? (fresh : Node) (key : String) (f : Node → Option Node) (entries : List (String × Node)) :
    Option (List (String × Node)) :=
  (f ((entries.lookup key).getD fresh)).map (put entries key)

/-- Applies `f` to the origin and the entries of a table, or of the last of several tables. -/
def within? (f : Origin → List (String × Node) → Option (List (String × Node))) :
    Node → Option Node
  | value _ => none
  | table origin entries => (f origin entries).map (table origin)
  | tables (last :: before) => (f .written last).map fun last => tables (last :: before)
  | tables [] => none

/-- Applies `f` to the table at the end of a path, and makes the tables on the way. A dotted key does not
lead through a table that has been written. -/
def descend? (dotted : Bool)
    (f : Origin → List (String × Node) → Option (List (String × Node))) :
    List String → Origin → List (String × Node) → Option (List (String × Node))
  | [], origin, entries => f origin entries
  | key :: path, _, entries =>
    change? (empty (if dotted then .dotted else .implied)) key
      (fun n =>
        match n with
        | table .written _ => if dotted then none else within? (descend? dotted f path) n
        | n => within? (descend? dotted f path) n)
      entries

/-- Gives a key behind a path of dotted keys a value. The key must be new, and the path must lead through
tables of dotted keys at its end. -/
def define? (path : List String) (key : String) (j : Json) (entries : List (String × Node)) :
    Option (List (String × Node)) :=
  descend? true
    (fun origin entries =>
      -- Dotted keys extend only tables of dotted keys, and plain keys no such table.
      if (origin == .dotted) == path.isEmpty then none
      else if entries.any (·.1 == key) then none
      else some (entries ++ [(key, value j)]))
    path .written entries

/-- Opens the table of a header. It must be new, or known only from the headers of tables in it. -/
def open? (path : List String) (key : String) (entries : List (String × Node)) :
    Option (List (String × Node)) :=
  descend? false
    (fun _ => change? (empty .implied) key fun n =>
      match n with
      | table .implied entries => some (table .written entries)
      | _ => none)
    path .written entries

/-- Opens a new table of a header in double brackets. -/
def openItem? (path : List String) (key : String) (entries : List (String × Node)) :
    Option (List (String × Node)) :=
  descend? false
    (fun _ => change? (tables []) key fun n =>
      match n with
      | tables items => some (tables ([] :: items))
      | _ => none)
    path .written entries

mutual

def toJson : Node → Json
  | value j => j
  | table _ entries => .object (entriesToJson entries)
  | tables items => .array (itemsToJson items).reverse

def entriesToJson : List (String × Node) → List (String × Json)
  | [] => []
  | (key, n) :: rest => (key, n.toJson) :: entriesToJson rest

def itemsToJson : List (List (String × Node)) → List Json
  | [] => []
  | entries :: rest => .object (entriesToJson entries) :: itemsToJson rest

end

end Node

end Routecraft.Toml
