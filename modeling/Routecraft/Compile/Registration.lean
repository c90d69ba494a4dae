import Routecraft.Compile.AttributeFilter
import Routecraft.Compile.Handler

/-!
# Registration units

The unit that registers the endpoints of one controller with a router. For each endpoint it makes the
handler, adds the route, and tells the route its return type, media types and attributes.

* `routeCode`: the code for one endpoint.
* `registrationUnit`: the unit.
-/

namespace Routecraft.Compile

open Bytecode

/-- The locals of the router and of the route at hand. -/
def routerSlot : UInt8 := 1
def routeSlot : UInt8 := 2

/-- Makes the handler of an endpoint and keeps the route that the router gives it. -/
def addRouteCode (unit : String) (e : Endpoint) : List (Instr Constant) :=
  let handler := handlerName e
  [.load routerSlot, .string e.verb.name, .string e.pattern, .newObject handler, .dup, .load 0,
    .getField unit Framework.providerField (.object Platform.provider),
    .invokeSpecial handler Framework.constructorName Framework.constructorSignature,
    Framework.routerRoute.instr, .store routeSlot]

/-- Tells the route something: `value` leaves the arguments of the call on the stack. -/
def setCode (setter : Call) (value : List (Instr Constant)) : List (Instr Constant) :=
  .load routeSlot :: value ++ [setter.instr, .pop]

/-- Tells the route its media types, if there are any. -/
def mediaTypesCode (setter : Call) (mediaTypes : List String) : List (Instr Constant) :=
  if mediaTypes.isEmpty then []
  else
    setCode setter <|
      arrayCode (.object Platform.object)
        (mediaTypes.map fun m => [.string m, Framework.mediaTypeValueOf.instr])
      ++ [Framework.listOf.instr]

/-- The code that registers one endpoint. -/
def routeCode (unit : String) (f : AttributeFilter) (e : Endpoint) : List (Instr Constant) :=
  addRouteCode unit e
    ++ setCode Framework.setReturnType (typeCode e.returnType)
    ++ mediaTypesCode Framework.setConsumes e.consumes
    ++ mediaTypesCode Framework.setProduces e.produces
    ++ (f.filter e.attributes).flatMap fun (name, a) =>
        setCode Framework.setAttribute (.string name :: attributeCode a)

/-- The classes that a registration unit is checked against: each handler is one. -/
def registrationHierarchy (c : Controller) : Hierarchy :=
  Framework.hierarchy.extend ⟨c.endpoints.map fun e => (handlerName e, Platform.handler)⟩

def registrationUnit (c : Controller) (f : AttributeFilter) : Except CompileError CodeUnit := do
  let name := registrationName c.name
  let d ← startUnit name .registration (registrationHierarchy c) Platform.installer
  let install :=
    Assembler.empty.emitAll (c.endpoints.flatMap (routeCode name f) ++ [.returnVoid])
  let d ← addMethod d Framework.installName Framework.installSignature install
  .ok d.toUnit

end Routecraft.Compile
