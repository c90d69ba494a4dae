/-!
# Data types and signatures

The erased types of fields, parameters and results, and their descriptors: one letter for a primitive
type, `L` and a name up to a semicolon for a class, a bracket before the element type of an array. A
signature is the descriptors of the parameters between parentheses and that of the result, or `V`.

* `DataType.parse`, `Signature.parse`: the type with a given descriptor, or why there is none.
* `DataType.length_lt_of_parseFront`: reading a type uses up part of the input.
-/

namespace Routecraft.Bytecode

inductive DataType where
  | boolean
  | byte
  | char
  | short
  | int
  | long
  | float
  | double
  | object (name : String)
  | array (element : DataType)
  deriving DecidableEq, Repr, Inhabited

/-- The types of a method's parameters and of its result, if it has one. -/
structure Signature where
  params : List DataType
  result : Option DataType
  deriving DecidableEq, Repr, Inhabited

inductive DescriptorFault where
  | endOfInput
  | unknownTag (c : Char)
  | unterminatedClass
  | emptyClassName
  /-- Another character was expected than the one found, or than the end. -/
  | expected (c : Char) (found : Option Char)
  /-- The descriptor ends before the text does. -/
  | trailing (offset : Nat)
  deriving DecidableEq, Repr

def DescriptorFault.message : DescriptorFault → String
  | endOfInput => "unexpected end of input"
  | unknownTag c => "unknown type tag `" ++ c.toString ++ "`"
  | unterminatedClass => "unterminated class type"
  | emptyClassName => "empty class name"
  | expected c (some d) => "expected `" ++ c.toString ++ "`, found `" ++ d.toString ++ "`"
  | expected c none => "expected `" ++ c.toString ++ "`, found end of input"
  | trailing offset => "trailing input at offset " ++ toString offset

/-! ## Descriptors -/

namespace DataType

def isReference : DataType → Bool
  | object _ => true
  | array _ => true
  | _ => false

/-- The type of the items of an array; any other type is that of its own items. -/
def item : DataType → DataType
  | array element => element
  | t => t

def descriptorChars : DataType → List Char
  | boolean => ['Z']
  | byte => ['B']
  | char => ['C']
  | short => ['S']
  | int => ['I']
  | long => ['J']
  | float => ['F']
  | double => ['D']
  | object name => 'L' :: name.toList ++ [';']
  | array element => '[' :: element.descriptorChars

def descriptor (t : DataType) : String := String.ofList t.descriptorChars

/-- The name that stands for the type where a class is expected: that of a class itself, the descriptor of
any other type. -/
def className : DataType → String
  | object name => name
  | t => t.descriptor

end DataType

namespace Signature

def resultChars : Option DataType → List Char
  | some t => t.descriptorChars
  | none => ['V']

def descriptorChars (s : Signature) : List Char :=
  '(' :: s.params.flatMap DataType.descriptorChars ++ ')' :: resultChars s.result

def descriptor (s : Signature) : String := String.ofList s.descriptorChars

def void (params : List DataType) : Signature := ⟨params, none⟩

def returning (params : List DataType) (result : DataType) : Signature := ⟨params, some result⟩

end Signature

/-! ## Reading descriptors -/

namespace DataType

/-- The type at the front of a text, and the rest of it. -/
def parseFront : List Char → Except DescriptorFault (DataType × List Char)
  | [] => .error .endOfInput
  | 'Z' :: rest => .ok (boolean, rest)
  | 'B' :: rest => .ok (byte, rest)
  | 'C' :: rest => .ok (char, rest)
  | 'S' :: rest => .ok (short, rest)
  | 'I' :: rest => .ok (int, rest)
  | 'J' :: rest => .ok (long, rest)
  | 'F' :: rest => .ok (float, rest)
  | 'D' :: rest => .ok (double, rest)
  | '[' :: rest =>
    match parseFront rest with
    | .ok (element, rest') => .ok (array element, rest')
    | .error fault => .error fault
  | 'L' :: rest =>
    match rest.dropWhile (· != ';') with
    | [] => .error .unterminatedClass
    | _ :: rest' =>
      let name := rest.takeWhile (· != ';')
      if name.isEmpty then .error .emptyClassName else .ok (object (String.ofList name), rest')
  | c :: _ => .error (.unknownTag c)

/-- A data type takes at least one character, which ends the reading of types within types. -/
theorem length_lt_of_parseFront {cs rest : List Char} {t : DataType}
    (h : parseFront cs = .ok (t, rest)) : rest.length < cs.length := by
  fun_induction parseFront cs generalizing t rest with
  | case1 => simp at h
  | case2 | case3 | case4 | case5 | case6 | case7 | case8 | case9 =>
    simp only [Except.ok.injEq, Prod.mk.injEq] at h
    simp [← h.2]
  | case10 cs element rest' hcs ih =>
    simp only [Except.ok.injEq, Prod.mk.injEq] at h
    have := ih hcs
    rw [← h.2]
    simp only [List.length_cons]
    omega
  | case11 => simp at h
  | case12 => simp at h
  | case13 => simp at h
  | case14 cs c rest' hcs hname =>
    simp only [Except.ok.injEq, Prod.mk.injEq] at h
    have := (List.dropWhile_sublist (l := cs) (· != ';')).length_le
    rw [hcs] at this
    rw [← h.2]
    simp only [List.length_cons] at this ⊢
    omega
  | case15 => simp at h

/-- The bytes of a text before its last part `rest`. -/
def offsetOf (cs rest : List Char) : Nat :=
  (String.ofList cs).utf8ByteSize - (String.ofList rest).utf8ByteSize

/-- What was read, if nothing follows it. -/
def complete {α : Type} (cs : List Char) : α × List Char → Except DescriptorFault α
  | (x, []) => .ok x
  | (_, rest) => .error (.trailing (offsetOf cs rest))

def parseChars (cs : List Char) : Except DescriptorFault DataType := do
  complete cs (← parseFront cs)

def parse (descriptor : String) : Except DescriptorFault DataType := parseChars descriptor.toList

def ofClassName (name : String) : Except DescriptorFault DataType :=
  match name.toList with
  | [] => .error .emptyClassName
  | '[' :: _ => parse name
  | _ => .ok (object name)

end DataType

namespace Signature

/-- The parameter types up to the closing parenthesis, onto those before them in reverse. -/
def paramsFrom (done : List DataType) (cs : List Char) :
    Except DescriptorFault (List DataType × List Char) :=
  match cs with
  | ')' :: rest => .ok (done.reverse, rest)
  | cs =>
    match h : DataType.parseFront cs with
    | .ok (t, rest) =>
      have := DataType.length_lt_of_parseFront h
      paramsFrom (t :: done) rest
    | .error fault => .error fault
termination_by cs.length

/-- The result type at the front of a text, and the rest of it. -/
def resultFront : List Char → Except DescriptorFault (Option DataType × List Char)
  | 'V' :: rest => .ok (none, rest)
  | cs => (DataType.parseFront cs).map fun (t, rest) => (some t, rest)

def parseChars (cs : List Char) : Except DescriptorFault Signature :=
  match cs with
  | '(' :: inner => do
    let (params, afterParams) ← paramsFrom [] inner
    let (result, rest) ← resultFront afterParams
    DataType.complete cs (⟨params, result⟩, rest)
  | c :: _ => .error (.expected '(' (some c))
  | [] => .error (.expected '(' none)

def parse (descriptor : String) : Except DescriptorFault Signature := parseChars descriptor.toList

end Signature

end Routecraft.Bytecode
