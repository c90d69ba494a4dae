import Routecraft.Route.Attribute
import Routecraft.Route.Pattern
import Routecraft.Route.TypeExpr
import Routecraft.Route.Verb

/-!
# Controllers and their endpoints

A controller is a class with endpoints: methods that answer the requests of one verb to one pattern, each
parameter bound to a part of the request.

* `Controller.withEndpoint`: adds an endpoint with its pattern below the controller's path.
-/

namespace Routecraft

/-- A static method, by the class that has it and its name. -/
structure MethodName where
  owner : String
  name : String
  deriving DecidableEq, Repr

/-- The part of a request that a parameter takes its value from. -/
inductive Binding where
  | path
  | query
  | header
  | cookie
  | form
  | body
  | upload
  | context
  /-- A value looked up in the request by its class, or computed by a binder method. -/
  | bound (binder : Option MethodName)
  deriving DecidableEq, Repr

def Binding.name : Binding → String
  | path => "path"
  | query => "query"
  | header => "header"
  | cookie => "cookie"
  | form => "form"
  | body => "body"
  | upload => "upload"
  | context => "context"
  | bound _ => "bound"

structure Parameter where
  name : String
  /-- The name in the request, if it is not that of the parameter; empty for none. -/
  source : String
  binding : Binding
  type : TypeExpr
  nullable : Bool
  deriving DecidableEq, Repr

/-- The name in the request. -/
def Parameter.sourceName (p : Parameter) : String := if p.source.isEmpty then p.name else p.source

/-- A method of a controller and the requests that it answers. -/
structure Endpoint where
  owner : String
  name : String
  params : List Parameter
  returnType : TypeExpr
  verb : Verb
  pattern : String
  consumes : List String
  produces : List String
  attributes : AttributeMap
  deriving Repr

namespace Endpoint

/-- The category of the answer. -/
def outcome (e : Endpoint) : Outcome := .of e.returnType

def paramNames (e : Endpoint) : List String := e.params.map (·.name)

def qualifiedName (e : Endpoint) : String := e.owner ++ "." ++ e.name

end Endpoint

structure Controller where
  name : String
  /-- The path that the patterns of added endpoints are below. -/
  path : String
  endpoints : List Endpoint
  deriving Repr

namespace Controller

/-- A pattern below the controller's path. -/
def mount (c : Controller) (pattern : String) : String := Pattern.join c.path pattern

def withEndpoint (c : Controller) (e : Endpoint) : Controller :=
  { c with endpoints := c.endpoints ++ [{ e with pattern := c.mount e.pattern }] }

def mounted (c : Controller) : Controller :=
  { c with endpoints := c.endpoints.map fun e => { e with pattern := c.mount e.pattern } }

end Controller

end Routecraft
