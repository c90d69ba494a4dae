import Routecraft.Machine.Error
import Routecraft.Machine.Value

/-!
# The store

Everything that running code refers to and changes: the fields of objects, the items of arrays, the objects
of the host, and what the host has been told. It only grows: a number, once given out, always means the
same thing. A host object can have several handles.

* `Action`: a computation that changes the store, also when it fails.
* `Store.display?`: the text of a value, if it has an end.
-/

namespace Routecraft.Machine

/-- The parts of a request that hold named texts. -/
inductive RequestPart where
  | path
  | query
  | header
  | cookie
  | form
  deriving DecidableEq, Repr

namespace RequestPart

def all : List RequestPart := [path, query, header, cookie, form]

def name : RequestPart → String
  | path => "path"
  | query => "query"
  | header => "header"
  | cookie => "cookie"
  | form => "form"

def ofName? (s : String) : Option RequestPart := all.find? (·.name == s)

theorem ofName?_name (p : RequestPart) : ofName? p.name = some p := by cases p <;> decide

end RequestPart

structure Upload where
  field : String
  fileName : String
  content : List UInt8
  deriving DecidableEq, Repr

/-- What a client sends. -/
structure Request where
  /-- The named texts, in order. -/
  texts : List (RequestPart × String × String)
  body : List UInt8
  /-- The object that the body stands for. -/
  payload : Option Value
  uploads : List Upload
  /-- The values found by their class; a later one replaces an earlier one. -/
  values : List (String × Value)
  /-- The objects bound by their class; a later one replaces an earlier one. -/
  bound : List (String × Value)
  deriving Repr

namespace Request

def empty : Request := ⟨[], [], none, [], [], []⟩

def textsOf (r : Request) (part : RequestPart) (name : String) : List String :=
  r.texts.filterMap fun (p, n, s) => if p = part ∧ n = name then some s else none

def uploadsOf (r : Request) (field : String) : List Upload := r.uploads.filter (·.field == field)

def value? (r : Request) (className : String) : Option Value := r.values.reverse.lookup className

/-- The object bound for a class. -/
def bound? (r : Request) (className : String) : Option Value := r.bound.reverse.lookup className

end Request

/-- A request with the state of its response. -/
structure Exchange where
  request : Request
  started : Bool
  /-- The status codes sent, in order. -/
  sent : List UInt16
  deriving Repr

/-- A route that a router was told of. -/
structure Registered where
  router : Nat
  verb : String
  pattern : String
  handler : Value
  returnType : Option Value
  consumes : List Value
  produces : List Value
  /-- In order, names repeated as they were set. -/
  attributes : List (String × Value)
  deriving Repr

/-- The first attribute with a name. -/
def Registered.attribute? (r : Registered) (name : String) : Option Value := r.attributes.lookup name

/-- A call that a stub answered. -/
structure StubCall where
  stub : Nat
  method : String
  args : List Value
  deriving Repr

/-- An object of the host. -/
inductive HostObject where
  /-- The context of an exchange. -/
  | context (exchange : Nat)
  | router (router : Nat)
  | route (route : Nat)
  /-- A stand-in for an object that the application brings along. -/
  | stub (stub : Nat)
  | provider (content : Value)
  /-- The texts of a request under a name, with words for where they are from. -/
  | values (source : String) (texts : List String)
  | body (content : List UInt8) (payload : Option Value)
  | upload (file : Upload)
  deriving Repr

structure Store where
  /-- The fields of each object, the last one set first. -/
  objects : Array (List (String × Value))
  arrays : Array (Array Value)
  /-- The host object of each handle. -/
  handles : Array HostObject
  exchanges : Array Exchange
  /-- The count of routers. -/
  routers : Nat
  routes : Array Registered
  /-- The calls on stubs, in order. -/
  calls : Array StubCall
  deriving Repr, Inhabited

/-- A computation on the store. What was changed stays changed if it fails. -/
abbrev Action := ExceptT MachineError (StateM Store)

namespace Store

def empty : Store := ⟨#[], #[], #[], #[], 0, #[], #[]⟩

/-! ## Looking things up -/

/-- The value of a field of an object; a field that was never set is null. -/
def field (s : Store) (object : Nat) (name : String) : Value :=
  ((s.objects.getD object []).lookup name).getD .null

def items (s : Store) (array : Nat) : List Value := (s.arrays.getD array #[]).toList

def hostObject? (s : Store) (handle : Nat) : Option HostObject := s.handles[handle]?

def exchangeOf? (s : Store) : Value → Option Nat
  | .host _ handle =>
    match s.hostObject? handle with
    | some (.context exchange) => some exchange
    | _ => none
  | _ => none

def exchange? (s : Store) (exchange : Nat) : Option Exchange := s.exchanges[exchange]?

def routesOf (s : Store) (router : Nat) : List Registered :=
  s.routes.toList.filter (·.router == router)

/-- The first route of a router with a verb and a pattern. -/
def findRoute? (s : Store) (router : Nat) (verb pattern : String) : Option Registered :=
  (s.routesOf router).find? fun r => r.verb == verb && r.pattern == pattern

def callsOf (s : Store) (stub : Nat) : List StubCall := s.calls.toList.filter (·.stub == stub)

/-! ## The text of a value -/

/-- The text of a value, if the arrays in arrays end within a depth. -/
def displayWithin (s : Store) : (depth : Nat) → Value → Option String
  | 0, v => v.displayWith fun _ => none
  | depth + 1, v => v.displayWith fun array =>
      ((s.items array).mapM (s.displayWithin depth)).map Value.displayArray

/-- More levels than there are of arrays in arrays, unless one is within itself; and so many more that to write out
one that is never comes to the end of them. -/
def displayDepth (s : Store) : Nat := UInt64.size * s.arrays.size + 1

/-- The text of a value, if it has an end. Arrays are written out with all that is in them, so the text of an array
within itself has none. -/
def display? (s : Store) (v : Value) : Option String := s.displayWithin s.displayDepth v

/-- What comes of an error that tells of a value by its text. -/
def telling (s : Store) (v : Value) (error : String → MachineError) : MachineError :=
  match s.display? v with
  | some text => error text
  | none => .endless

/-! ## Adding things -/

def newObject (s : Store) (unit : String) : Value × Store :=
  (.object unit s.objects.size, { s with objects := s.objects.push [] })

/-- A new array of nulls. -/
def newArray (s : Store) (className : String) (size : Nat) : Value × Store :=
  (.array className s.arrays.size,
    { s with arrays := s.arrays.push (Array.replicate size .null) })

/-- A new handle to a host object of a class. -/
def newHandle (s : Store) (className : String) (object : HostObject) : Value × Store :=
  (.host className s.handles.size, { s with handles := s.handles.push object })

def newExchange (s : Store) (request : Request) (started : Bool) : Nat × Store :=
  (s.exchanges.size, { s with exchanges := s.exchanges.push ⟨request, started, []⟩ })

def newRouter (s : Store) : Nat × Store := (s.routers, { s with routers := s.routers + 1 })

/-! ## Changing things -/

def setField (s : Store) (object : Nat) (name : String) (v : Value) : Store :=
  { s with objects := s.objects.modify object ((name, v) :: ·) }

def setItem (s : Store) (array index : Nat) (v : Value) : Store :=
  { s with arrays := s.arrays.modify array (·.setIfInBounds index v) }

/-- Notes that a response has started. -/
def startResponse (s : Store) (exchange : Nat) : Store :=
  { s with exchanges := s.exchanges.modify exchange fun x => { x with started := true } }

def send (s : Store) (exchange : Nat) (code : UInt16) : Store :=
  { s with
    exchanges := s.exchanges.modify exchange fun x =>
      { x with started := true, sent := x.sent ++ [code] } }

end Store

/-! ## Actions -/

/-- An action that only fails. -/
def orFail {α : Type} : Except MachineError α → Action α
  | .ok x => pure x
  | .error e => throw e

/-- An action on units that may fail. -/
def orUnitFault {α : Type} : Except Bytecode.UnitError α → Action α
  | .ok x => pure x
  | .error e => throw (.unit e)

/-- Fails with an error that tells of a value by its text. -/
def throwTelling {α : Type} (v : Value) (error : String → MachineError) : Action α := do
  throw ((← get).telling v error)

/-- Fails for a value that is not what was expected. -/
def mismatch {α : Type} (expected : String) (found : Value) : Action α :=
  throwTelling found (.typeMismatch expected)

/-- A new handle to a host object of a class. -/
def handleTo (className : String) (object : HostObject) : Action Value :=
  modifyGet (·.newHandle className object)

namespace Value

def asText : Value → Action String
  | text s => pure s
  | v => mismatch Platform.string v

def asClass : Value → Action String
  | classRef name => pure name
  | v => mismatch Platform.classClass v

def asInt : Value → Action Int32
  | int n => pure n
  | v => mismatch "int" v

def asList : Value → Action (List Value)
  | list items => pure items
  | v => mismatch Platform.list v

def asArray : Value → Action (List Value)
  | array _ number => return (← get).items number
  | v => mismatch "array" v

def asObject : Value → Action Nat
  | object _ number => pure number
  | v => mismatch "unit instance" v

end Value

end Routecraft.Machine
