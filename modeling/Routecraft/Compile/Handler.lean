import Routecraft.Bytecode.Draft
import Routecraft.Compile.BindingCode
import Routecraft.Compile.RouteName

/-!
# Handler units

The unit that answers the requests of one endpoint. It holds a provider of the controller; applied to a
request context it gets the controller, binds the parameters, calls the endpoint's method, and makes the
answer from what the method returns.

* `applyCode`: the code of the answer.
* `handlerUnit`: the unit.
-/

namespace Routecraft.Compile

open Bytecode

/-- The code of a constructor that keeps the provider in its field. -/
def constructorCode (unit : String) : Assembler :=
  Assembler.empty.emitAll [
    .load 0,
    .load 1,
    .putField unit Framework.providerField (.object Platform.provider),
    .returnVoid]

/-- Writes the code of all parameters; it ends at the first one that cannot be bound. -/
def bindParams (a : Assembler) (method : String) : List Parameter → Except CompileError Assembler
  | [] => .ok a
  | p :: rest =>
    match bindParam a method p with
    | (a, .ok ()) => bindParams a method rest
    | (_, .error e) => .error e

/-- The answer of a method without a result: the context, on which the status for no content is sent unless
the response has been started. -/
def answerNothing (a : Assembler) : Assembler :=
  let (untouched, a) := a.newLabel
  let a := (a.emitAll [loadContext, Framework.isResponseStarted.instr]).jump .ifFalse untouched
  let a := (a.emitAll [loadContext, .returnValue]).bind untouched
  a.emitAll [
    loadContext,
    .getStatic Platform.statusCode Framework.noContent (.object Platform.statusCode),
    Framework.send.instr,
    .returnValue]

/-- The answer that is made from the result on the stack. -/
def answer (a : Assembler) : Outcome → Assembler
  | .void => answerNothing a
  | .primitive kind => a.emitAll [(Framework.box kind).instr, .returnValue]
  | .statusCode => a.emitAll [loadContext, .swap, Framework.send.instr, .returnValue]
  | .reference _ => a.emit .returnValue
  | .context => a.emit .returnValue
  | .parameterized _ _ => a.emit .returnValue

/-- The code that answers a request. -/
def applyCode (unit : String) (e : Endpoint) : Except CompileError Assembler := do
  let a := Assembler.empty.emitAll [
    .load 0,
    .getField unit Framework.providerField (.object Platform.provider),
    Framework.providerGet.instr,
    .checkCast (.object e.owner)]
  let a ← bindParams a e.qualifiedName e.params
  .ok (answer (a.emit (.invokeVirtual e.owner e.name (signatureOf e))) e.outcome)

def addMethod (d : Draft) (name : String) (s : Signature) (a : Assembler) :
    Except CompileError Draft :=
  match d.addMethod name s a with
  | (d, .ok ()) => .ok d
  | (_, .error e) => .error (.internal e)

/-- A unit with an interface and a provider that its constructor takes. -/
def startUnit (name : String) (role : Role) (h : Hierarchy) (interface : String) :
    Except CompileError Draft :=
  let d := (Draft.new name role).withHierarchy h
  let d := (d.implement interface).addField Framework.providerField (.object Platform.provider)
  addMethod d Framework.constructorName Framework.constructorSignature (constructorCode name)

def handlerUnit (e : Endpoint) : Except CompileError CodeUnit := do
  let name := handlerName e
  let d ← startUnit name .handler Framework.hierarchy Platform.handler
  let d ← addMethod d Framework.applyName Framework.applySignature (← applyCode name e)
  .ok d.toUnit

end Routecraft.Compile
