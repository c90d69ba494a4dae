import Routecraft.Compile.Framework
import Routecraft.Machine.Conversion
import Routecraft.Machine.Store
import Routecraft.Text.Blank
import Routecraft.Text.Utf8

/-!
# Objects of the host

What the framework's objects do when running code calls their methods, as a recording of what they were
asked, and stubs, whose methods the application gives.

* `HostObject.call`: a method of a host object.
* `callFramework`: a static method of the framework.
-/

namespace Routecraft.Machine

open Compile (Framework.unboxName)

/-- The code of a method that the application gives. -/
abbrev HostCode := List Value → Action Value

/-- A stand-in for an object of the application: its class, and its methods, the last one given first. -/
structure Stub where
  className : String
  methods : List (String × HostCode)

instance : Inhabited Stub := ⟨⟨"", []⟩⟩

/-! ## Code of the application -/

namespace HostCode

def returning (v : Value) : HostCode := fun _ => pure v

/-- Gives an argument, null if there are not so many. -/
def argument (i : Nat) : HostCode := fun args => pure (args.getD i .null)

def arguments : HostCode := fun args => pure (.list args)

/-- Fails for want of something. -/
def failing (what : String) : HostCode := fun _ => throw (.missing what)

def starting : HostCode := fun args => do
  modify fun s => (args.filterMap s.exchangeOf?).foldl Store.startResponse s
  pure .null

end HostCode

/-! ## Requests -/

def callContext (exchange : Nat) (method : String) (args : List Value) : Action Value := do
  let some x := (← get).exchange? exchange | throw (.noSuchMethod Platform.context method)
  match method, args with
  | "body", [] => handleTo Platform.body (.body x.request.body x.request.payload)
  | "file", [name] =>
    let name ← name.asText
    match x.request.uploadsOf name with
    | file :: _ => handleTo Platform.fileUpload (.upload file)
    | [] => throw (.missing ("file `" ++ name ++ "`"))
  | "files", [name] =>
    let files := x.request.uploadsOf (← name.asText)
    return .list (← files.mapM fun file => handleTo Platform.fileUpload (.upload file))
  | "require", [className] =>
    let className ← className.asClass
    match x.request.value? className with
    | some v => pure v
    | none => throw (.missing ("context value " ++ className))
  | "bind", [className] =>
    let className ← className.asClass
    match x.request.bound? className with
    | some v => pure v
    | none => throw (.missing ("bound object " ++ className))
  | "isResponseStarted", [] => return .ofBool x.started
  | "send", [.status code] =>
    modify (·.send exchange code)
    handleTo Platform.context (.context exchange)
  | _, [name] =>
    match RequestPart.ofName? method with
    | some part =>
      let name ← name.asText
      handleTo Platform.value
        (.values (part.name ++ " `" ++ name ++ "`") (x.request.textsOf part name))
    | none => throw (.noSuchMethod Platform.context method)
  | _, _ => throw (.noSuchMethod Platform.context method)

def firstText (source : String) : List String → Action String
  | s :: _ => pure s
  | [] => throw (.missing source)

def readAll (className : String) (texts : List String) : Action (List Value) :=
  orFail (texts.mapM (readAs className))

def callValues (source : String) (texts : List String) (method : String) (args : List Value) :
    Action Value := do
  match method, args with
  | "value", [] => return .text (← firstText source texts)
  | "valueOrNull", [] => return (texts.head?.map Value.text).getD .null
  | "to", [className] =>
    let raw ← firstText source texts
    orFail (readAs (← className.asClass) raw)
  | "toNullable", [className] =>
    match texts with
    | raw :: _ => orFail (readAs (← className.asClass) raw)
    | [] => pure .null
  | "toOptional", [className] =>
    match texts with
    | raw :: _ => return .optional (some (← orFail (readAs (← className.asClass) raw)))
    | [] => return .optional none
  | "toList", [className] => return .list (← readAll (← className.asClass) texts)
  | "toSet", [className] => return .set (Value.distinct (← readAll (← className.asClass) texts))
  | _, [] =>
    match Primitive.all.find? (Framework.unboxName · == method) with
    | some kind => orFail (readPrimitive kind (← firstText source texts))
    | none => throw (.noSuchMethod Platform.value method)
  | _, _ => throw (.noSuchMethod Platform.value method)

def bodyText (content : List UInt8) : Action String :=
  match Text.ofUtf8? content with
  | some s => pure s
  | none => throw (.conversion "<binary body>" Platform.string)

/-- The object that a body stands for, as an object of a type. -/
def bodyObject (payload : Option Value) (type : Value) : Action Value := do
  match payload with
  | some v => pure v
  | none => throwTelling type fun text => .missing ("body object of type " ++ text)

def callBody (content : List UInt8) (payload : Option Value) (method : String)
    (args : List Value) : Action Value := do
  match method, args with
  | "bytes", [] => return .bytes content
  | "stream", [] => return .record Platform.inputStream [("bytes", .bytes content)]
  | "value", [] => return .text (← bodyText content)
  | "to", [.classRef className] =>
    if className = Platform.string then return .text (← bodyText content)
    else if (Primitive.ofBoxClass? className).isSome then
      orFail (readAs className (Text.trim (← bodyText content)))
    else bodyObject payload (.classRef className)
  | "to", [.reified base args] => bodyObject payload (.reified base args)
  | _, _ => throw (.noSuchMethod Platform.body method)

def callUpload (file : Upload) (method : String) (args : List Value) : Action Value :=
  match method, args with
  | "path", [] => pure (.record Platform.filePath [("name", .text file.fileName)])
  | "bytes", [] => pure (.bytes file.content)
  | _, _ => throw (.noSuchMethod Platform.fileUpload method)

/-! ## Routers -/

def callRouter (router : Nat) (method : String) (args : List Value) : Action Value := do
  match method, args with
  | "route", [verb, pattern, handler] =>
    let verb ← verb.asText
    let pattern ← pattern.asText
    let number := (← get).routes.size
    modify fun s =>
      { s with routes := s.routes.push ⟨router, verb, pattern, handler, none, [], [], []⟩ }
    handleTo Platform.route (.route number)
  | _, _ => throw (.noSuchMethod Platform.router method)

def changeRoute (route : Nat) (change : Registered → Registered) : Action Unit :=
  modify fun s => { s with routes := s.routes.modify route change }

def callRoute (route : Nat) (method : String) (args : List Value) : Action Value := do
  match method, args with
  | "setReturnType", [type] => changeRoute route fun r => { r with returnType := some type }
  | "setConsumes", [types] =>
    let types ← types.asList
    changeRoute route fun r => { r with consumes := types }
  | "setProduces", [types] =>
    let types ← types.asList
    changeRoute route fun r => { r with produces := types }
  | "setAttribute", [name, value] =>
    let name ← name.asText
    changeRoute route fun r => { r with attributes := r.attributes ++ [(name, value)] }
  | _, _ => throw (.noSuchMethod Platform.route method)
  handleTo Platform.route (.route route)

/-! ## All objects -/

/-- A method of a stub. The call counts as answered before the method runs. -/
def callStub (stubs : Array Stub) (number : Nat) (method : String) (args : List Value) :
    Action Value := do
  let stub := stubs.getD number default
  match stub.methods.lookup method with
  | some code =>
    modify fun s => { s with calls := s.calls.push ⟨number, method, args⟩ }
    code args
  | none => throw (.noSuchMethod stub.className method)

def callProvider (content : Value) (method : String) (args : List Value) : Action Value :=
  match method, args with
  | "get", [] => pure content
  | _, _ => throw (.noSuchMethod Platform.provider method)

def HostObject.call (stubs : Array Stub) (object : HostObject) (method : String)
    (args : List Value) : Action Value :=
  match object with
  | context exchange => callContext exchange method args
  | router number => callRouter number method args
  | route number => callRoute number method args
  | stub number => callStub stubs number method args
  | provider content => callProvider content method args
  | values source texts => callValues source texts method args
  | body content payload => callBody content payload method args
  | upload file => callUpload file method args

/-! ## Static members -/

/-- The entries whose keys and values stand in turn in a list. -/
def pairUp : List Value → Option (List (Value × Value))
  | [] => some []
  | [_] => none
  | k :: v :: rest => (pairUp rest).map ((k, v) :: ·)

/-- A static method of the framework. -/
def callFramework (owner method : String) (args : List Value) : Action Value := do
  match owner, method, args with
  | Platform.optional, "ofNullable", [v] =>
    return .optional (match v with
      | .null => none
      | v => some v)
  | Platform.list, "of", [items] => return .list (← items.asArray)
  | Platform.map, "ofEntries", [items] =>
    match pairUp (← items.asArray) with
    | some entries => return .map entries
    | none => throw (.fault .oddEntries)
  | Platform.mediaType, "valueOf", [name] => return .mediaType (← name.asText)
  | Platform.reified, "parameterized", [base, args] =>
    return .reified (← base.asClass) (← args.asArray)
  | _, "valueOf", [v] =>
    match Primitive.ofBoxClass? owner with
    | some kind => return .boxed kind v
    | none => throw (.noSuchMethod owner method)
  | _, _, _ => throw (.noSuchMethod owner method)

def noContent : UInt16 := 204

def staticField (owner name : String) : Value :=
  if owner = Platform.statusCode ∧ name = Compile.Framework.noContent then .status noContent
  else .constant owner name

end Routecraft.Machine
