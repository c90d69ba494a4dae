import Routecraft.Json.Reader
import Routecraft.Json.Record
import Routecraft.Json.Writer
import Routecraft.Route.Controller

/-!
# Descriptor documents

The documents that describe types, attributes, endpoints and controllers. Types and attributes nest; their
readers recurse on a bound that the depth of the document supplies, since each level opens a bracket.

* `TypeExpr.ofJson?`, `TypeExpr.toJson`, and the same for each other part of a description.
* `Controller.readAll?`: the controllers that a document describes, mounted.
-/

namespace Routecraft

open Json

/-! ## Types -/

namespace TypeExpr

def ofJsonWithin? : (bound : Nat) → Json → Option TypeExpr
  | 0, _ => none
  | bound + 1, j => do
    let (name, content) ← j.choice?
    if name = "void" then
      if isEmptyContent content then some void else none
    else
      let content ← content
      if name = "primitive" then (content.named? Primitive.ofName?).map primitive
      else if name = "class" then
        match ← content.fields? ["name", "args"] with
        | [name, args] =>
          some (named (← required? asText? name)
            (← orElse? [] (asList? (ofJsonWithin? bound)) args))
        | _ => none
      else if name = "array" then (ofJsonWithin? bound content).map array
      else none

def ofJson? (j : Json) : Option TypeExpr := ofJsonWithin? (j.depth + 1) j

mutual

/-- The document of a type; an empty list of arguments is left out. -/
def toJson : TypeExpr → Json
  | void => .text "void"
  | primitive kind => .object [("primitive", .text kind.name)]
  | named name [] => .object [("class", .object [("name", .text name)])]
  | named name (arg :: args) =>
    .object [("class", .object [("name", .text name), ("args", .array (toJsons (arg :: args)))])]
  | array element => .object [("array", element.toJson)]

def toJsons : List TypeExpr → List Json
  | [] => []
  | t :: rest => t.toJson :: toJsons rest

end

end TypeExpr

/-! ## Attributes -/

namespace Attribute

/-- Reads the entries of a map, of which a repeated key takes the last value in its first place. -/
def entriesOf? (value? : Json → Option Attribute) : Json → Option AttributeMap
  | .object members =>
    members.foldlM (fun entries (key, j) => (value? j).map (put entries key)) []
  | _ => none

def single? : Json → Option UInt32
  | .number n => n.toSingle?
  | _ => none

def double? : Json → Option UInt64
  | .number n => n.toDouble?
  | _ => none

def ofJsonWithin? : (bound : Nat) → Json → Option Attribute
  | 0, _ => none
  | bound + 1, j => do
    let (name, content) ← j.choice?
    let content ← content
    if name = "boolean" then content.asBool?.map boolean
    else if name = "byte" then content.asInt8?.map byte
    else if name = "char" then content.asChar?.map char
    else if name = "short" then content.asInt16?.map short
    else if name = "int" then content.asInt32?.map int
    else if name = "long" then content.asInt64?.map long
    else if name = "float" then (single? content).map float
    else if name = "double" then (double? content).map double
    else if name = "string" then content.asText?.map string
    else if name = "class" then content.asText?.map classRef
    else if name = "enum" then
      match ← content.fields? ["type", "constant"] with
      | [type, constant] => some (.enum (← required? asText? type) (← required? asText? constant))
      | _ => none
    else if name = "list" then (content.asList? (ofJsonWithin? bound)).map list
    else if name = "map" then (entriesOf? (ofJsonWithin? bound) content).map map
    else none

def ofJson? (j : Json) : Option Attribute := ofJsonWithin? (j.depth + 1) j

def mapOfJson? (j : Json) : Option AttributeMap := entriesOf? ofJson? j

mutual

def toJson : Attribute → Json
  | boolean b => .object [("boolean", .bool b)]
  | byte n => .object [("byte", .int n.toInt)]
  | char c => .object [("char", .text (String.singleton c))]
  | short n => .object [("short", .int n.toInt)]
  | int n => .object [("int", .int n.toInt)]
  | long n => .object [("long", .int n.toInt)]
  | float bits => .object [("float", .ofSingle bits)]
  | double bits => .object [("double", .ofDouble bits)]
  | string s => .object [("string", .text s)]
  | classRef name => .object [("class", .text name)]
  | .enum type constant =>
    .object [("enum", .object [("type", .text type), ("constant", .text constant)])]
  | list items => .object [("list", .array (toJsons items))]
  | map entries => .object [("map", .object (toMembers entries))]

def toJsons : List Attribute → List Json
  | [] => []
  | a :: rest => a.toJson :: toJsons rest

def toMembers : List (String × Attribute) → List (String × Json)
  | [] => []
  | (key, a) :: rest => (key, a.toJson) :: toMembers rest

end

end Attribute

/-! ## Controllers -/

namespace MethodName

def ofJson? (j : Json) : Option MethodName := do
  match ← j.fields? ["owner", "name"] with
  | [owner, name] => some ⟨← required? asText? owner, ← required? asText? name⟩
  | _ => none

def toJson (m : MethodName) : Json := .object [("owner", .text m.owner), ("name", .text m.name)]

end MethodName

namespace Binding

/-- The binding without data that has a name. -/
def ofName? (name : String) : Option Binding :=
  [path, query, header, cookie, form, body, upload, context].find? (·.name == name)

def ofJson? (j : Json) : Option Binding := do
  let (name, content) ← j.choice?
  if name = "bound" then
    match ← (← content).fields? ["binder"] with
    | [binder] => (orElse? none (asOptional? MethodName.ofJson?) binder).map bound
    | _ => none
  else if isEmptyContent content then ofName? name
  else none

def toJson : Binding → Json
  | bound none => .object [("bound", .object [])]
  | bound (some binder) => .object [("bound", .object [("binder", binder.toJson)])]
  | b => .text b.name

end Binding

/-- A member that is left out when its list is empty. -/
def Json.unlessEmpty (name : String) : List Json → List (String × Json)
  | [] => []
  | items => [(name, .array items)]

namespace Parameter

def ofJson? (j : Json) : Option Parameter := do
  match ← j.fields? ["name", "source", "binding", "type", "nullable"] with
  | [name, source, binding, type, nullable] =>
    some {
      name := ← required? asText? name
      source := ← orElse? "" asText? source
      binding := ← required? Binding.ofJson? binding
      type := ← required? TypeExpr.ofJson? type
      nullable := ← orElse? false asBool? nullable }
  | _ => none

def toJson (p : Parameter) : Json :=
  .object <| [("name", .text p.name)]
    ++ (if p.source.isEmpty then [] else [("source", .text p.source)])
    ++ [("binding", p.binding.toJson), ("type", p.type.toJson), ("nullable", .bool p.nullable)]

end Parameter

namespace Endpoint

def ofJson? (j : Json) : Option Endpoint := do
  match ← j.fields? ["owner", "name", "params", "return_type", "verb", "pattern", "consumes",
    "produces", "attributes"] with
  | [owner, name, params, returnType, verb, pattern, consumes, produces, attributes] =>
    some {
      owner := ← required? asText? owner
      name := ← required? asText? name
      params := ← orElse? [] (asList? Parameter.ofJson?) params
      returnType := ← orElse? .void TypeExpr.ofJson? returnType
      verb := ← required? (named? Verb.ofName?) verb
      pattern := ← required? asText? pattern
      consumes := ← orElse? [] (asList? asText?) consumes
      produces := ← orElse? [] (asList? asText?) produces
      attributes := ← orElse? [] Attribute.mapOfJson? attributes }
  | _ => none

def toJson (e : Endpoint) : Json :=
  .object <| [
      ("owner", .text e.owner),
      ("name", .text e.name),
      ("params", .array (e.params.map Parameter.toJson)),
      ("return_type", e.returnType.toJson),
      ("verb", .text e.verb.name),
      ("pattern", .text e.pattern)]
    ++ unlessEmpty "consumes" (e.consumes.map .text)
    ++ unlessEmpty "produces" (e.produces.map .text)
    ++ (if e.attributes.isEmpty then []
      else [("attributes", .object (Attribute.toMembers e.attributes))])

end Endpoint

namespace Controller

def ofJson? (j : Json) : Option Controller := do
  match ← j.fields? ["name", "path", "methods"] with
  | [name, path, endpoints] =>
    some {
      name := ← required? asText? name
      path := ← orElse? "" asText? path
      endpoints := ← orElse? [] (asList? Endpoint.ofJson?) endpoints }
  | _ => none

/-- The document of a controller. Its patterns are mounted, so its path is left out. -/
def toJson (c : Controller) : Json :=
  .object [("name", .text c.name), ("methods", .array (c.endpoints.map Endpoint.toJson))]

/-- The controllers of a document, which is a list of them or a single one. -/
def listOfJson? (j : Json) : Option (List Controller) :=
  if j.isUsable then
    (j.asList? ofJson?).or ((ofJson? j).map ([·]))
  else none

/-- The controllers that a document describes, with their endpoints mounted. -/
def readAll? (text : String) : Option (List Controller) := do
  let controllers ← listOfJson? (← Json.read? text)
  some (controllers.map mounted)

end Controller

end Routecraft
