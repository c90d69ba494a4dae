import Routecraft.Bytecode.Assembler
import Routecraft.Bytecode.Verify

/-!
# Drafting units

A unit is put together part by part. Each method is assembled and verified when it is added; one that
fails is left out, while constants that it entered remain in the pool.

* `Draft.addMethod`: adds a method with the frame that its code needs.
* `Draft.toUnit`: the unit put together.
-/

namespace Routecraft.Bytecode

/-- A unit that is being put together, and the classes that its methods are checked against. -/
structure Draft where
  name : String
  role : Role
  interfaces : List String
  constants : Interner
  fields : List Field
  methods : List Method
  hierarchy : Hierarchy

namespace Draft

def new (name : String) (role : Role) : Draft :=
  ⟨name, role, [], .empty, [], [], .empty⟩

/-- Adds classes to check against. -/
def withHierarchy (d : Draft) (h : Hierarchy) : Draft :=
  { d with hierarchy := d.hierarchy.extend h }

def implement (d : Draft) (interface : String) : Draft :=
  { d with
    interfaces := d.interfaces ++ [interface]
    hierarchy := d.hierarchy.add d.name interface }

def addField (d : Draft) (name : String) (type : DataType) : Draft :=
  { d with fields := d.fields ++ [⟨name, type⟩] }

def addMethod (d : Draft) (name : String) (s : Signature) (a : Assembler) :
    Draft × Except UnitError Unit :=
  let (constants, code) := a.assemble d.constants
  let d := { d with constants }
  match code with
  | .error e => (d, .error e)
  | .ok code =>
    match verifyMethod d.name name s code constants.pool d.hierarchy with
    | .error e => (d, .error e)
    | .ok frame =>
      ({ d with methods := d.methods ++ [⟨name, s, frame.maxStack, frame.maxLocals, code⟩] }, .ok ())

def toUnit (d : Draft) : CodeUnit :=
  ⟨d.name, d.role, d.interfaces, d.constants.pool, d.fields, d.methods⟩

end Draft

end Routecraft.Bytecode
