import Routecraft.Bytecode.Document
import Routecraft.Machine.Store

/-!
# Values as documents

Values of the machine as JSON. A value is null or an object with one member, whose key says the kind.
Things of the store are written out: arrays by their items, objects and host objects by their class. They
are not read back; a document that is no value may refer to a thing by other means. As with its text, there is no end
to the document of an array within itself.

* `Value.ofJson`: reads a value.
* `Store.toJson`, `Store.routeToJson`: the documents of values and routes.
-/

namespace Routecraft.Machine

open Bytecode

namespace Value

/-! ## Reading -/

def leafOf (kind : String) (j : Json) : Except DocumentFault Value := do
  match kind, j with
  | "int", j => return int (← int32Of j)
  | "long", j => return long (← int64Of j)
  | "float", j => return float (UInt32.ofNat (← patternOf j))
  | "double", j => return double (UInt64.ofNat (← patternOf j))
  | "boxed_int", j => return boxedInt (← int32Of j)
  | "str", j => return text (← textOf j)
  | "class", j => return classRef (← textOf j)
  | "bytes", j => return bytes (← shaped (Text.readBytes? (← textOf j)))
  | "media_type", j => return mediaType (← textOf j)
  | "status", j => return status (← word16Of j)
  | "enum", .array [type, name] => return constant (← textOf type) (← textOf name)
  | _, _ => .error .shape

mutual

/-- Reads a value. A document that is none goes to `refer`. -/
def ofJson {M : Type → Type} [Monad M] (refer : Json → M Value) : Json → M Value
  | .null => pure null
  | .object [("boxed", .array [.text kind, v])] => do
    let v ← ofJson refer v
    match Primitive.ofName? kind with
    | some kind => return boxed kind v
    | none => refer .null
  | .object [("reified", .array [.text base, .array args])] =>
    return reified base (← itemsOf refer args)
  | .object [("list", .array items)] => return list (← itemsOf refer items)
  | .object [("set", .array items)] => return set (← itemsOf refer items)
  | .object [("map", .array entries)] => return map (← entriesOf refer entries)
  | .object [("optional", .array [])] => pure (optional none)
  | .object [("optional", .array [v])] => return optional (some (← ofJson refer v))
  | .object [("record", .array [.text className, .array fields])] =>
    return record className (← fieldsOf refer fields)
  | .object [(kind, j)] =>
    match leafOf kind j with
    | .ok v => pure v
    | .error _ => refer (.object [(kind, j)])
  | j => refer j

def itemsOf {M : Type → Type} [Monad M] (refer : Json → M Value) : List Json → M (List Value)
  | [] => pure []
  | j :: rest => return (← ofJson refer j) :: (← itemsOf refer rest)

def entriesOf {M : Type → Type} [Monad M] (refer : Json → M Value) :
    List Json → M (List (Value × Value))
  | .array [k, v] :: rest =>
    return (← ofJson refer k, ← ofJson refer v) :: (← entriesOf refer rest)
  | _ => pure []

def fieldsOf {M : Type → Type} [Monad M] (refer : Json → M Value) :
    List Json → M (List (String × Value))
  | .array [.text name, v] :: rest => return (name, ← ofJson refer v) :: (← fieldsOf refer rest)
  | _ => pure []

end

/-! ## Writing -/

def tagged (kind : String) (j : Json) : Json := .object [(kind, j)]

mutual

/-- The document of a value, if arrays and handles have the documents `arrays` and `handles`. -/
def toJsonWith (arrays handles : String → Nat → Json) : Value → Json
  | null => .null
  | int n => tagged "int" (.int n.toInt)
  | long n => tagged "long" (.int n.toInt)
  | float bits => tagged "float" (patternText 8 bits.toNat)
  | double bits => tagged "double" (patternText 16 bits.toNat)
  | boxed kind v => tagged "boxed" (.array [.text kind.name, v.toJsonWith arrays handles])
  | text s => tagged "str" (.text s)
  | classRef name => tagged "class" (.text name)
  | reified base args =>
    tagged "reified" (.array [.text base, .array (itemsToJson arrays handles args)])
  | bytes content => tagged "bytes" (.text (Text.hexBytes content))
  | list items => tagged "list" (.array (itemsToJson arrays handles items))
  | set items => tagged "set" (.array (itemsToJson arrays handles items))
  | map entries => tagged "map" (.array (entriesToJson arrays handles entries))
  | optional none => tagged "optional" (.array [])
  | optional (some v) => tagged "optional" (.array [v.toJsonWith arrays handles])
  | mediaType name => tagged "media_type" (.text name)
  | status code => tagged "status" (.nat code.toNat)
  | constant type name => tagged "enum" (.array [.text type, .text name])
  | record className fields =>
    tagged "record" (.array [.text className, .array (fieldsToJson arrays handles fields)])
  | array className number => arrays className number
  | object unit _ => tagged "instance" (.text unit)
  | host className handle => handles className handle

def itemsToJson (arrays handles : String → Nat → Json) : List Value → List Json
  | [] => []
  | v :: vs => v.toJsonWith arrays handles :: itemsToJson arrays handles vs

def entriesToJson (arrays handles : String → Nat → Json) : List (Value × Value) → List Json
  | [] => []
  | (k, v) :: rest =>
    .array [k.toJsonWith arrays handles, v.toJsonWith arrays handles]
      :: entriesToJson arrays handles rest

def fieldsToJson (arrays handles : String → Nat → Json) : List (String × Value) → List Json
  | [] => []
  | (k, v) :: rest =>
    .array [.text k, v.toJsonWith arrays handles] :: fieldsToJson arrays handles rest

end

end Value

namespace Store

/-- The document of a handle: a file by its content, any other object by its class. -/
def handleToJson (s : Store) (className : String) (handle : Nat) : Json :=
  match s.hostObject? handle with
  | some (.upload file) =>
    Value.tagged "file"
      (.array [.text file.field, .text file.fileName, .text (Text.hexBytes file.content)])
  | _ => Value.tagged "native" (.text className)

/-- The document of a value, with arrays in arrays down to a depth. -/
def toJsonWithin (s : Store) : (depth : Nat) → Value → Json
  | 0, v => v.toJsonWith (fun _ _ => .unusable) s.handleToJson
  | depth + 1, v =>
    let arrays (className : String) (array : Nat) :=
      Value.tagged "array" (.array [.text className,
        .array ((s.items array).map (s.toJsonWithin depth))])
    v.toJsonWith arrays s.handleToJson

def toJson (s : Store) (v : Value) : Json := s.toJsonWithin s.displayDepth v

def textToJson (s : Store) (v : Value) : Json := ((s.display? v).map Json.text).getD .unusable

/-- What there is to show of a value: its document, its text and its class. -/
def shownMembers (s : Store) (v : Value) : List (String × Json) := [
  ("value", s.toJson v),
  ("display", s.textToJson v),
  ("class", (v.className?.map Json.text).getD .null)]

/-- The document of a value with its text and its class. -/
def shown (s : Store) (v : Value) : Json := .object (s.shownMembers v)

def mediaTypeToJson (s : Store) : Value → Json
  | .mediaType name => .text name
  | v => s.textToJson v

def routeToJson (s : Store) (r : Registered) : Json :=
  .object [
    ("verb", .text r.verb),
    ("pattern", .text r.pattern),
    ("handler", s.toJson r.handler),
    ("return_type", (r.returnType.map s.shown).getD .null),
    ("consumes", .array (r.consumes.map s.mediaTypeToJson)),
    ("produces", .array (r.produces.map s.mediaTypeToJson)),
    ("attributes", .array (r.attributes.map fun (name, v) =>
      .array [.text name, s.toJson v, s.textToJson v]))]

end Store

def Exchange.toJson (x : Exchange) : Json :=
  .object [
    ("started", .bool x.started),
    ("sent", .array (x.sent.map fun code => .nat code.toNat))]

end Routecraft.Machine
