import Routecraft.Bytecode.Encoding
import Routecraft.Compile.Registration

/-!
# Compiling controllers

A controller compiles to the encoded units of its endpoints' handlers and of its registration. Its endpoints
have to be its own, and no two of them may be told apart by nothing.

* `compileController`: the units of one controller.
* `compileAll`: those of several, up to the first that does not compile.
-/

namespace Routecraft.Compile

open Bytecode

/-- A unit in its byte form. -/
structure EncodedUnit where
  name : String
  role : Role
  bytes : List UInt8
  deriving DecidableEq, Repr

namespace EncodedUnit

def of (u : CodeUnit) : Except UnitError EncodedUnit := do .ok ⟨u.name, u.role, ← u.encode⟩

def decode (u : EncodedUnit) : Except UnitError CodeUnit := CodeUnit.decode u.bytes

def fileName (u : EncodedUnit) : String := u.name ++ ".dunit"

end EncodedUnit

structure CompiledController where
  controller : String
  handlers : List EncodedUnit
  registration : EncodedUnit
  deriving DecidableEq, Repr

namespace CompiledController

/-- The handlers and then the registration. -/
def units (c : CompiledController) : List EncodedUnit := c.handlers ++ [c.registration]

/-- The size of all units. -/
def totalBytes (c : CompiledController) : Nat :=
  c.units.foldl (fun n u => n + u.bytes.length) 0

end CompiledController

/-! ## Checking controllers -/

/-- Checks endpoints against their controller and the endpoints before them, which are given with their
handlers' names. -/
def checkEndpoints (controller : String) (before : List (String × Endpoint)) :
    List Endpoint → Except CompileError Unit
  | [] => .ok ()
  | e :: rest =>
    if e.owner ≠ controller then
      .error (.invalidController controller (.foreignMethod e.name e.owner))
    else
      let unit := handlerName e
      match before.lookup unit with
      | some first =>
        .error (.duplicateRoute e.verb e.pattern unit first.qualifiedName e.qualifiedName)
      | none => checkEndpoints controller ((unit, e) :: before) rest

def checkController (c : Controller) : Except CompileError Unit :=
  if c.name.isEmpty then .error (.invalidController c.name .unnamed)
  else checkEndpoints c.name [] c.endpoints

/-! ## Compiling -/

def compileHandler (e : Endpoint) : Except CompileError EncodedUnit := do
  internally (EncodedUnit.of (← handlerUnit e))

def compileController (f : AttributeFilter) (c : Controller) :
    Except CompileError CompiledController := do
  checkController c
  let handlers ← c.endpoints.mapM compileHandler
  let registration ← internally (EncodedUnit.of (← registrationUnit c f))
  .ok ⟨c.name, handlers, registration⟩

/-- The units of a controller, whose name must not be one of those seen before. -/
def compileUnseen (f : AttributeFilter) (seen : List String) (c : Controller) :
    Except CompileError CompiledController :=
  if seen.contains c.name then .error (.invalidController c.name .repeated)
  else compileController f c

/-- The units of several controllers after those seen before. -/
def compileAllFrom (f : AttributeFilter) (seen : List String) :
    List Controller → Except CompileError (List CompiledController)
  | [] => .ok []
  | c :: rest => do
    let compiled ← compileUnseen f seen c
    .ok (compiled :: (← compileAllFrom f (c.name :: seen) rest))

def compileAll (f : AttributeFilter) (cs : List Controller) :
    Except CompileError (List CompiledController) :=
  compileAllFrom f [] cs

end Routecraft.Compile
