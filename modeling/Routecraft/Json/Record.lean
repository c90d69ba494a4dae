import Routecraft.Json.Basic

/-!
# Reading values from documents

The conventions by which a document describes a value. A record is an object, or an array of its fields
in their order; a missing field is `none` here, and it is for the reader of the record to supply a
default or to refuse. A choice is a name, or an object with one member whose key is the name. Refusals
carry no reason.

* `fields?`: what a record says of each of its fields.
* `choice?`: the name of an alternative and its content.
-/

namespace Routecraft.Json

/-! ## Plain values -/

def asBool? : Json → Option Bool
  | bool b => some b
  | _ => none

def asText? : Json → Option String
  | text s => some s
  | _ => none

def asIntIn? (low high : Int) : Json → Option Int
  | number n => n.toInt?.filter fun i => decide (low ≤ i) && decide (i ≤ high)
  | _ => none

def asInt8? (j : Json) : Option Int8 :=
  (j.asIntIn? Int8.minValue.toInt Int8.maxValue.toInt).map Int8.ofInt

def asInt16? (j : Json) : Option Int16 :=
  (j.asIntIn? Int16.minValue.toInt Int16.maxValue.toInt).map Int16.ofInt

def asInt32? (j : Json) : Option Int32 :=
  (j.asIntIn? Int32.minValue.toInt Int32.maxValue.toInt).map Int32.ofInt

def asInt64? (j : Json) : Option Int64 :=
  (j.asIntIn? Int64.minValue.toInt Int64.maxValue.toInt).map Int64.ofInt

def asChar? : Json → Option Char
  | text s =>
    match s.toList with
    | [c] => some c
    | _ => none
  | _ => none

mutual

/-- A text that may be written in pieces: as the list of them, or as a piece with the number of times that
it is repeated. -/
def asPieces? : Json → Option String
  | text s => some s
  | array items => (piecesOf? items).map String.join
  | object [("repeat", array [piece, times])] => do
    let s ← asPieces? piece
    let n ← asIntIn? 0 UInt32.size times
    return String.join (List.replicate n.toNat s)
  | _ => none

def piecesOf? : List Json → Option (List String)
  | [] => some []
  | j :: rest => do
    let s ← asPieces? j
    return s :: (← piecesOf? rest)

end

def asList? {α : Type} (item? : Json → Option α) : Json → Option (List α)
  | array items => items.mapM item?
  | _ => none

/-- A value, or `null` for none. -/
def asOptional? {α : Type} (value? : Json → Option α) : Json → Option (Option α)
  | null => some none
  | j => (value? j).map some

/-! ## Records -/

/-- The value of the member called `name`, if there is one; none may be repeated. -/
def member? (members : List (String × Json)) (name : String) : Option (Option Json) :=
  match members.filter (·.1 == name) with
  | [] => some none
  | [(_, j)] => some (some j)
  | _ => none

/-- The fields `names` in the order of an array. -/
def positional? : List String → List Json → Option (List (Option Json))
  | [], [] => some []
  | [], _ :: _ => none
  | _ :: names, [] => (positional? names []).map (none :: ·)
  | _ :: names, j :: items => (positional? names items).map (some j :: ·)

/-- What a record says of each of its fields. Members of other names are passed over. -/
def fields? (names : List String) : Json → Option (List (Option Json))
  | object members => names.mapM (member? members)
  | array items => positional? names items
  | _ => none

/-- The value of a field that has to be given. -/
def required? {α : Type} (value? : Json → Option α) : Option Json → Option α
  | some j => value? j
  | none => none

/-- The value of a field, or what stands for it when it is missing. -/
def orElse? {α : Type} (default : α) (value? : Json → Option α) : Option Json → Option α
  | some j => value? j
  | none => some default

/-! ## Choices -/

/-- The name of an alternative, and its content if the document gives one. -/
def choice? : Json → Option (String × Option Json)
  | text name => some (name, none)
  | object [(name, content)] => some (name, some content)
  | _ => none

/-- Whether the content of an alternative without data is as it should be. -/
def isEmptyContent : Option Json → Bool
  | none => true
  | some null => true
  | some _ => false

/-- An alternative without data, by its name. -/
def named? {α : Type} (find? : String → Option α) (j : Json) : Option α := do
  let (name, content) ← j.choice?
  if isEmptyContent content then find? name else none

end Routecraft.Json
