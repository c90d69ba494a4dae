import Routecraft.Compile.Literal
import Routecraft.Proofs.Compile.Calls

/-!
# Types and attributes as values

The code of a type or an attribute leaves it on the stack, read as a value. On the way it fills arrays, one for
each class with arguments, list and map; these are all that it adds to the store.

* `typeValue`, `attributeValue`: types and attributes as values.
* `Program.Makes`: code that leaves a value, and the arrays that it adds.
* `Program.makes_typeCode`, `Program.makes_attributeCode`: the code of types and attributes does so.
-/

namespace Routecraft.Machine

open Bytecode Compile

/-! ## Arrays -/

namespace Store

/-- The store with further arrays. -/
def withArrays (s : Store) (as : List (Array Value)) : Store := { s with arrays := s.arrays ++ as.toArray }

variable (s : Store) (a : Array Value) (as bs : List (Array Value))

@[simp] theorem withArrays_nil : s.withArrays [] = s := by
  simp [withArrays]

@[simp] theorem withArrays_withArrays : (s.withArrays as).withArrays bs = s.withArrays (as ++ bs) := by
  simp [withArrays]

/-- A new array stands behind those that are there. -/
theorem newArray_eq (className : String) (size : Nat) :
    s.newArray className size =
      (.array className s.arrays.size, s.withArrays [Array.replicate size .null]) := by
  simp [newArray, withArrays]

@[simp] theorem items_withArrays : (s.withArrays (a :: as)).items s.arrays.size = a.toList := by
  simp [items, withArrays]

/-- An item of the newest array is set in it alone. -/
theorem setItem_withArrays (index : Nat) (v : Value) :
    (s.withArrays (a :: as)).setItem s.arrays.size index v =
      s.withArrays (a.setIfInBounds index v :: as) := by
  unfold setItem withArrays
  congr 1
  apply Array.ext'
  have hsize : s.arrays.size < (s.arrays.toList ++ a :: as).length := by simp
  have hdrop : List.drop (s.arrays.size + 1) (s.arrays.toList ++ a :: as) = as := by
    rw [← Array.length_toList, List.drop_append]
    simp
  simp only [Array.toList_modify, Array.toList_append, List.modify_eq_take_cons_drop hsize, hdrop]
  simp

end Store

/-- The array with values stored from a place on. -/
def fill (a : Array Value) (i : Nat) : List Value → Array Value
  | [] => a
  | v :: vs => fill (a.setIfInBounds i v) (i + 1) vs

/-- Filling an array goes on behind the items that are done. -/
theorem fill_append (done vs : List Value) {rest : List Value} (h : rest.length = vs.length) :
    fill (done ++ rest).toArray done.length vs = (done ++ vs).toArray := by
  induction vs generalizing done rest with
  | nil => rw [fill, List.length_eq_zero_iff.mp h]
  | cons v vs ih =>
      obtain ⟨_, rest, rfl⟩ := List.exists_of_length_succ rest h
      have hset : (done ++ v :: rest) = (done ++ [v]) ++ rest := by simp
      have hlength : done.length + 1 = (done ++ [v]).length := by simp
      rw [fill, List.setIfInBounds_toArray, List.set_append_right _ _ (Nat.le_refl _), Nat.sub_self,
        List.set_cons_zero, hset, hlength, ih (done ++ [v]) (by simpa using h)]
      simp

/-- An array of nulls that is filled holds what it is filled with. -/
theorem fill_replicate (vs : List Value) : fill (Array.replicate vs.length .null) 0 vs = vs.toArray := by
  have h := fill_append [] vs (List.length_replicate (a := Value.null))
  simpa using h

/-! ## Code that leaves a value -/

/-- Code that leaves a value on the stack, and adds arrays to the store. -/
def Program.Makes (p : Program) (code : List (Instr Constant)) (v : Value) (as : List (Array Value)) : Prop :=
  ∀ (ls : Array Value) (st : List Value) (s : Store),
    s.perform (p.effects code ⟨ls, st⟩) = (.ok ⟨ls, v :: st⟩, s.withArrays as)

/-- Pieces of code that leave a value each. -/
inductive Program.MakesAll (p : Program) :
    List (List (Instr Constant)) → List Value → List (Array Value) → Prop
  | nil : MakesAll p [] [] []
  | cons {code : List (Instr Constant)} {codes : List (List (Instr Constant))} {v : Value} {vs : List Value}
      {as bs : List (Array Value)} :
      p.Makes code v as → MakesAll p codes vs bs → MakesAll p (code :: codes) (v :: vs) (as ++ bs)

namespace Program

variable {p : Program} {codes : List (List (Instr Constant))} {vs : List Value} {as : List (Array Value)}
  {ls : Array Value} {st : List Value} {s : Store}

/-- Each piece of code makes one value. -/
theorem MakesAll.length_eq (h : p.MakesAll codes vs as) : codes.length = vs.length := by
  induction h with
  | nil => rfl
  | cons _ _ ih => simp [ih]

/-- A small index is written down as it is. -/
theorem toInt_saturate32 {i : Nat} (h : i ≤ 2147483647) : (saturate32 i).toInt = i := by
  unfold saturate32
  rw [Nat.min_eq_left h, Int32.toInt_ofNat_of_lt (by omega)]

theorem saturate32_nonneg {i : Nat} (h : i ≤ 2147483647) : 0 ≤ saturate32 i := by
  rw [Int32.le_iff_toInt_le, toInt_saturate32 h, Int32.toInt_zero]
  omega

/-- Stores an item of an array that was made after the store `s`. -/
theorem effect_arrayStore {i : Nat} (hi : i ≤ 2147483647) {a : Array Value} (ha : i < a.size)
    (className : String) (v : Value) (bs : List (Array Value)) :
    (s.withArrays (a :: bs)).perform
        (p.effect .arrayStore ⟨ls, v :: .int (saturate32 i) :: .array className s.arrays.size :: st⟩) =
      (.ok ⟨ls, st⟩, s.withArrays (a.setIfInBounds i v :: bs)) := by
  have hget : (s.withArrays (a :: bs)).arrays.getD s.arrays.size #[] = a := by simp [Store.withArrays]
  have hindex : 0 ≤ saturate32 i ∧ i < a.size := ⟨saturate32_nonneg hi, ha⟩
  simp only [effect, Instr.arrayStore, arrayStoreEffect, Operands.pop_mk_cons, pure_bind, Value.asInt,
    Store.perform_bind, Store.perform_get, hget, if_pos hindex, Store.perform_modify, Store.perform_pure,
    toInt_saturate32 hi, Int.toNat_natCast, Store.setItem_withArrays]

/-- The code that fills an array. -/
theorem effects_storeFrom (h : p.MakesAll codes vs as) {i : Nat} (hi : i + codes.length ≤ 2147483647)
    {a : Array Value} (ha : i + codes.length ≤ a.size) (className : String) (bs : List (Array Value)) :
    (s.withArrays (a :: bs)).perform
        (p.effects (storeFrom i codes) ⟨ls, .array className s.arrays.size :: st⟩) =
      (.ok ⟨ls, .array className s.arrays.size :: st⟩, s.withArrays (fill a i vs :: (bs ++ as))) := by
  induction h generalizing i a bs with
  | nil => simp [storeFrom, fill]
  | @cons code codes v vs as as' hcode _ ih =>
      rw [List.length_cons] at hi ha
      have hdup (o : Operands) : p.effect .dup o = o.top >>= fun v => pure (o.push v) := rfl
      have hpush (o : Operands) : p.effect (.pushInt (saturate32 i)) o = pure (o.push (.int (saturate32 i))) :=
        rfl
      have hsize : i + 1 + codes.length ≤ (a.setIfInBounds i v).size := by
        rw [Array.size_setIfInBounds]
        omega
      have hrest := ih (by omega) hsize (bs ++ as)
      rw [storeFrom]
      simp only [List.cons_append, effects_cons, effects_append, hdup, hpush, Operands.top_mk_cons,
        Operands.push_mk, pure_bind, Store.perform_bind, hcode _ _ _, Store.withArrays_withArrays]
      rw [effect_arrayStore (by omega) (by omega)]
      simp only [hrest, fill, List.append_assoc]

/-- The code that makes an array. -/
theorem effects_arrayCode (h : p.MakesAll codes vs as) (hlength : codes.length ≤ 2147483647)
    {element : DataType} (helement : dataTypeOfClass element.className = .ok element) :
    s.perform (p.effects (arrayCode element codes) ⟨ls, st⟩) =
      (.ok ⟨ls, .array (DataType.array element).className s.arrays.size :: st⟩,
        s.withArrays (vs.toArray :: as)) := by
  have hpush (o : Operands) : p.effect (.pushInt (saturate32 codes.length)) o =
      pure (o.push (.int (saturate32 codes.length))) := rfl
  have hsize : ¬ saturate32 codes.length < 0 := by
    have := saturate32_nonneg hlength
    simpa using this
  have hnew (st : List Value) : s.perform
      (p.effect (.newArray element) ⟨ls, .int (saturate32 codes.length) :: st⟩) =
        (.ok ⟨ls, .array (DataType.array element).className s.arrays.size :: st⟩,
          s.withArrays [Array.replicate codes.length .null]) := by
    simp only [effect, Instr.newArray, Constant.ofType, constEffect, helement, orUnitFault_ok, pure_bind,
      Operands.pop_mk_cons, Value.asInt, if_neg hsize, Store.perform_bind, Store.perform_modifyGet,
      Store.newArray_eq, toInt_saturate32 hlength, Int.toNat_natCast, Store.perform_pure, Operands.push_mk]
  have hroom : 0 + codes.length ≤ (Array.replicate codes.length Value.null).size := by simp
  rw [arrayCode]
  simp only [effects_cons, hpush, Operands.push_mk, pure_bind, Store.perform_bind, hnew]
  rw [effects_storeFrom h (by omega) hroom, h.length_eq, fill_replicate, List.nil_append]

/-! ## Containers -/

/-- Storing items takes three instructions for each, beside its own code. -/
theorem length_storeFrom (i : Nat) (codes : List (List (Instr Constant))) :
    (storeFrom i codes).length = codes.flatten.length + 3 * codes.length := by
  induction codes generalizing i with
  | nil => rfl
  | cons code codes ih =>
      simp only [storeFrom, List.cons_append, List.length_cons, List.length_append, ih, List.flatten_cons]
      omega

/-- The code of an array takes two more instructions than storing its items. -/
theorem length_arrayCode (element : DataType) (codes : List (List (Instr Constant))) :
    (arrayCode element codes).length = codes.flatten.length + 3 * codes.length + 2 := by
  simp [arrayCode, length_storeFrom]

/-- A list is made by a call on the class, with one argument. -/
theorem onClass_listOf : Framework.OnClass Framework.listOf 1 := ⟨by decide, rfl, rfl⟩

/-- A map is made by a call on the class, with one argument. -/
theorem onClass_mapOfEntries : Framework.OnClass Framework.mapOfEntries 1 := ⟨by decide, rfl, rfl⟩

/-- A reified type is made by a call on the class, with two arguments. -/
theorem onClass_reifiedParameterized : Framework.OnClass Framework.reifiedParameterized 2 :=
  ⟨by decide, rfl, rfl⟩

section

variable (s : Store) (vs : List Value) (as : List (Array Value)) (className : String)

/-- The items of an array that was just made. -/
theorem perform_asArray :
    (s.withArrays (vs.toArray :: as)).perform (Value.array className s.arrays.size).asArray =
      (.ok vs, s.withArrays (vs.toArray :: as)) := by
  unfold Value.asArray
  simp only [Store.perform_bind, Store.perform_get, Store.perform_pure, Store.items_withArrays]

/-- The framework makes a reified type of a class and the items of an array. -/
theorem perform_reifiedParameterized (name : String) :
    (s.withArrays (vs.toArray :: as)).perform
        (callFramework Framework.reifiedParameterized.owner Framework.reifiedParameterized.name
          [.classRef name, .array className s.arrays.size]) =
      (.ok (.reified name vs), s.withArrays (vs.toArray :: as)) := by
  show Store.perform _ (do return Value.reified name (← (Value.array className s.arrays.size).asArray)) = _
  rw [Store.perform_bind, perform_asArray]
  rfl

/-- The framework makes a list of the items of an array. -/
theorem perform_listOf :
    (s.withArrays (vs.toArray :: as)).perform
        (callFramework Framework.listOf.owner Framework.listOf.name [.array className s.arrays.size]) =
      (.ok (.list vs), s.withArrays (vs.toArray :: as)) := by
  show Store.perform _ (do return Value.list (← (Value.array className s.arrays.size).asArray)) = _
  rw [Store.perform_bind, perform_asArray]
  rfl

/-- The framework makes a map of the items of an array, taken in pairs. -/
theorem perform_mapOfEntries {entries : List (Value × Value)} (h : pairUp vs = some entries) :
    (s.withArrays (vs.toArray :: as)).perform
        (callFramework Framework.mapOfEntries.owner Framework.mapOfEntries.name
          [.array className s.arrays.size]) =
      (.ok (.map entries), s.withArrays (vs.toArray :: as)) := by
  show Store.perform _ ((Value.array className s.arrays.size).asArray >>= _) = _
  rw [Store.perform_bind, perform_asArray]
  simp only [h, Store.perform_pure]

end

section

variable (hp : p.Unshadowed) (h : p.MakesAll codes vs as) (hlength : codes.length ≤ 2147483647)
include hp h hlength

theorem makes_reified (name : String) :
    p.Makes
      (.classOf (.object name) :: arrayCode (.object Platform.type) codes
        ++ [Framework.reifiedParameterized.instr])
      (.reified name vs) (vs.toArray :: as) := by
  intro ls st s
  have hclass (o : Operands) : p.effect (.classOf (.object name)) o = pure (o.push (.classRef name)) := rfl
  have helement : dataTypeOfClass (DataType.object Platform.type).className = .ok (.object Platform.type) := rfl
  simp only [List.cons_append, effects_cons, effects_append, hclass, Operands.push_mk, pure_bind,
    Store.perform_bind, effects_arrayCode h hlength helement, effects_nil,
    effect_onClass₂ hp onClass_reifiedParameterized, perform_reifiedParameterized, Store.perform_pure]

theorem makes_list :
    p.Makes (arrayCode (.object Platform.object) codes ++ [Framework.listOf.instr]) (.list vs)
      (vs.toArray :: as) := by
  intro ls st s
  have helement : dataTypeOfClass (DataType.object Platform.object).className = .ok (.object Platform.object) :=
    rfl
  simp only [effects_cons, effects_append, Store.perform_bind, effects_arrayCode h hlength helement,
    effects_nil, effect_onClass₁ hp onClass_listOf, perform_listOf, Store.perform_pure]

theorem makes_map {entries : List (Value × Value)} (hentries : pairUp vs = some entries) :
    p.Makes (arrayCode (.object Platform.object) codes ++ [Framework.mapOfEntries.instr]) (.map entries)
      (vs.toArray :: as) := by
  intro ls st s
  have helement : dataTypeOfClass (DataType.object Platform.object).className = .ok (.object Platform.object) :=
    rfl
  simp only [effects_cons, effects_append, Store.perform_bind, effects_arrayCode h hlength helement,
    effects_nil, effect_onClass₁ hp onClass_mapOfEntries, perform_mapOfEntries _ _ _ _ hentries,
    Store.perform_pure]

end

end Program

/-! ## Types -/

mutual

/-- A type as a value: the class that stands for it, applied to its arguments. The request context stands for
nothing, its box for a primitive type. -/
def typeValue : TypeExpr → Value
  | .void => .classRef Platform.context
  | .primitive kind => .classRef kind.boxClass
  | .named name [] => .classRef name
  | .named name (arg :: args) => .reified name (typeValues (arg :: args))
  | .array element =>
    .classRef (((dataType? element).map fun t => (DataType.array t).className).getD Platform.context)

def typeValues : List TypeExpr → List Value
  | [] => []
  | t :: rest => typeValue t :: typeValues rest

end

mutual

/-- The arrays that are filled for a type: one for the arguments of each class. -/
def typeArrays : TypeExpr → List (Array Value)
  | .named _ (arg :: args) => (typeValues (arg :: args)).toArray :: typesArrays (arg :: args)
  | _ => []

/-- The arrays that are filled for types. -/
def typesArrays : List TypeExpr → List (Array Value)
  | [] => []
  | t :: rest => typeArrays t ++ typesArrays rest

end

namespace Program

variable {p : Program}

/-- A constant is made by the instruction that pushes it. -/
theorem makes_const {c : Constant} {v : Value} (h : constantValue c = pure v) : p.Makes [.const c] v [] := by
  intro ls st s
  have heffect (o : Operands) : p.effect (.const c) o = constantValue c >>= fun v => pure (o.push v) := rfl
  simp [heffect, h]

/-- The class literal of a type without arguments is its value. -/
theorem classValue_eq (t : TypeExpr) (h : t.args = []) :
    .classRef ((classLiteral? t).getD (.object Platform.context)).className = typeValue t := by
  cases t with
  | void => rfl
  | primitive kind => rfl
  | named name args =>
      cases h
      rfl
  | array element =>
      show Value.classRef (((dataType? element).map DataType.array).getD _).className = Value.classRef _
      cases dataType? element <;> rfl

/-- The code for a type without arguments makes its value. -/
theorem makes_classCode (t : TypeExpr) (h : t.args = []) : p.Makes (classCode t) (typeValue t) [] := by
  rw [← classValue_eq t h]
  exact makes_const rfl

mutual

/-- **The code of a type** leaves the type as a value. -/
theorem makes_typeCode (hp : p.Unshadowed) (t : TypeExpr) (hlength : (typeCode t).length ≤ 2147483647) :
    p.Makes (typeCode t) (typeValue t) (typeArrays t) := by
  match t with
  | .void => exact makes_classCode _ rfl
  | .primitive kind => exact makes_classCode _ rfl
  | .array element => exact makes_classCode _ rfl
  | .named name [] => exact makes_classCode _ rfl
  | .named name (arg :: args) =>
      rw [typeCode] at hlength ⊢
      simp only [List.length_cons, List.length_append, length_arrayCode, List.length_nil] at hlength
      exact makes_reified hp (makesAll_typeCodes hp (arg :: args) (by omega)) (by omega) name

/-- The code of types leaves each of them as a value. -/
theorem makesAll_typeCodes (hp : p.Unshadowed) (ts : List TypeExpr)
    (hlength : (typeCodes ts).flatten.length ≤ 2147483647) :
    p.MakesAll (typeCodes ts) (typeValues ts) (typesArrays ts) := by
  match ts with
  | [] => exact .nil
  | t :: rest =>
      simp only [typeCodes, List.flatten_cons, List.length_append] at hlength
      exact .cons (makes_typeCode hp t (by omega)) (makesAll_typeCodes hp rest (by omega))

end

end Program

/-! ## Attributes -/

mutual

/-- An attribute as a value: a number in its box, and everything else as what it is. -/
def attributeValue : Attribute → Value
  | .boolean b => .boxed .boolean (.ofBool b)
  | .byte n => .boxed .byte (.int n.toInt32)
  | .char c => .boxed .char (.int (Int32.ofNat c.toNat))
  | .short n => .boxed .short (.int n.toInt32)
  | .int n => .boxed .int (.int n)
  | .long n => .boxed .long (.long n)
  | .float bits => .boxed .float (.float bits)
  | .double bits => .boxed .double (.double bits)
  | .string s => .text s
  | .classRef name => .classRef name
  | .enum type constant => staticField type constant
  | .list items => .list (attributeValues items)
  | .map entries => .map (entryValues entries)

def attributeValues : List Attribute → List Value
  | [] => []
  | a :: rest => attributeValue a :: attributeValues rest

def entryValues : List (String × Attribute) → List (Value × Value)
  | [] => []
  | (key, a) :: rest => (.text key, attributeValue a) :: entryValues rest

end

/-- The keys and values of entries in turn. -/
def inTurn (entries : List (Value × Value)) : List Value := entries.flatMap fun (k, v) => [k, v]

/-- Keys and values in turn can be taken in pairs again. -/
theorem pairUp_inTurn (entries : List (Value × Value)) : pairUp (inTurn entries) = some entries := by
  induction entries with
  | nil => rfl
  | cons e entries ih =>
      show (pairUp (inTurn entries)).map _ = _
      rw [ih]
      rfl

mutual

/-- The arrays that are filled for an attribute: one for each list or map. -/
def attributeArrays : Attribute → List (Array Value)
  | .list items => (attributeValues items).toArray :: attributesArrays items
  | .map entries => (inTurn (entryValues entries)).toArray :: entriesArrays entries
  | _ => []

/-- The arrays that are filled for attributes. -/
def attributesArrays : List Attribute → List (Array Value)
  | [] => []
  | a :: rest => attributeArrays a ++ attributesArrays rest

/-- The arrays that are filled for the entries of a map. -/
def entriesArrays : List (String × Attribute) → List (Array Value)
  | [] => []
  | (_, a) :: rest => attributeArrays a ++ entriesArrays rest

end

/-- The code of the keys and values of entries in turn. -/
def inTurnCodes (entries : List (String × List (Instr Constant))) : List (List (Instr Constant)) :=
  entries.flatMap fun (key, value) => [[.string key], value]

/-- There is a piece of code for each key and each value. -/
theorem length_inTurnCodes (entries : List (String × List (Instr Constant))) :
    (inTurnCodes entries).length = entries.length * 2 := by
  induction entries with
  | nil => rfl
  | cons e entries ih =>
      show (inTurnCodes entries).length + 2 = _
      rw [ih, List.length_cons]
      omega

/-- Storing entries is storing their keys and values in turn. -/
theorem storeEntriesFrom_eq (i : Nat) (entries : List (String × List (Instr Constant))) :
    storeEntriesFrom i entries = storeFrom i (inTurnCodes entries) := by
  induction entries generalizing i with
  | nil => rfl
  | cons e entries ih =>
      obtain ⟨key, value⟩ := e
      show _ = storeFrom i ([.string key] :: value :: inTurnCodes entries)
      simp only [storeEntriesFrom, storeFrom, ih, List.cons_append, List.nil_append]

/-- Attributes within an attribute are made as a map of their entries. -/
theorem attributeCode_map (entries : List (String × Attribute)) :
    attributeCode (.map entries) =
      arrayCode (.object Platform.object) (inTurnCodes (entryCodes entries)) ++ [Framework.mapOfEntries.instr] := by
  have hlength : (entryCodes entries).length = entries.length := by
    induction entries with
    | nil => rfl
    | cons e entries ih => simp [entryCodes, ih]
  rw [attributeCode, storeEntriesFrom_eq, arrayCode, length_inTurnCodes, hlength]

namespace Program

variable {p : Program}

/-- A primitive value is made and put into its box. -/
theorem makes_boxed (hp : p.Unshadowed) {kind : Primitive} {i : Instr Constant} {v : Value}
    (h : p.Makes [i] v []) : p.Makes (boxed kind i) (.boxed kind v) [] := by
  intro ls st s
  show s.perform (p.effects ([i] ++ [(Framework.box kind).instr]) ⟨ls, st⟩) = _
  rw [effects_append, Store.perform_bind, h ls st s]
  simp only [effects_cons, effects_nil, effect_box hp, Store.perform_bind, Store.perform_pure]

/-- A number that is written in the code is pushed. -/
theorem makes_pushInt (n : Int32) : p.Makes [.pushInt n] (.int n) [] := by
  intro ls st s
  simp [effect]

/-- A static field is read by name. -/
theorem makes_getStatic (type constant : String) (t : DataType) :
    p.Makes [.getStatic type constant t] (staticField type constant) [] := by
  intro ls st s
  have heffect (o : Operands) :
      p.effect (.getStatic type constant t) o = pure (o.push (staticField type constant)) := rfl
  simp [heffect]

mutual

/-- **The code of an attribute** leaves the attribute as a value. -/
theorem makes_attributeCode (hp : p.Unshadowed) (a : Attribute)
    (hlength : (attributeCode a).length ≤ 2147483647) :
    p.Makes (attributeCode a) (attributeValue a) (attributeArrays a) := by
  match a with
  | .boolean b => exact makes_boxed hp (makes_pushInt _)
  | .byte n => exact makes_boxed hp (makes_pushInt _)
  | .char c => exact makes_boxed hp (makes_pushInt _)
  | .short n => exact makes_boxed hp (makes_pushInt _)
  | .int n => exact makes_boxed hp (makes_pushInt _)
  | .long n => exact makes_boxed hp (makes_const rfl)
  | .float bits => exact makes_boxed hp (makes_const rfl)
  | .double bits => exact makes_boxed hp (makes_const rfl)
  | .string s => exact makes_const rfl
  | .classRef name => exact makes_const rfl
  | .enum type constant => exact makes_getStatic type constant _
  | .list items =>
      rw [attributeCode] at hlength ⊢
      simp only [List.length_append, length_arrayCode, List.length_cons, List.length_nil] at hlength
      exact makes_list hp (makesAll_attributeCodes hp items (by omega)) (by omega)
  | .map entries =>
      rw [attributeCode_map] at hlength ⊢
      simp only [List.length_append, length_arrayCode, List.length_cons, List.length_nil] at hlength
      exact makes_map hp (makesAll_entryCodes hp entries (by omega)) (by omega) (pairUp_inTurn _)

/-- The code of attributes leaves each of them as a value. -/
theorem makesAll_attributeCodes (hp : p.Unshadowed) (as : List Attribute)
    (hlength : (attributeCodes as).flatten.length ≤ 2147483647) :
    p.MakesAll (attributeCodes as) (attributeValues as) (attributesArrays as) := by
  match as with
  | [] => exact .nil
  | a :: rest =>
      simp only [attributeCodes, List.flatten_cons, List.length_append] at hlength
      exact .cons (makes_attributeCode hp a (by omega)) (makesAll_attributeCodes hp rest (by omega))

/-- The code of entries leaves their keys and values in turn. -/
theorem makesAll_entryCodes (hp : p.Unshadowed) (entries : List (String × Attribute))
    (hlength : (inTurnCodes (entryCodes entries)).flatten.length ≤ 2147483647) :
    p.MakesAll (inTurnCodes (entryCodes entries)) (inTurn (entryValues entries)) (entriesArrays entries) := by
  match entries with
  | [] => exact .nil
  | (key, a) :: rest =>
      have hcodes : inTurnCodes (entryCodes ((key, a) :: rest)) =
          [.string key] :: attributeCode a :: inTurnCodes (entryCodes rest) := rfl
      rw [hcodes] at hlength ⊢
      simp only [List.flatten_cons, List.length_append] at hlength
      have hkey : p.Makes [.string key] (.text key) [] := makes_const rfl
      have harrays : entriesArrays ((key, a) :: rest) = [] ++ (attributeArrays a ++ entriesArrays rest) := rfl
      rw [harrays]
      apply MakesAll.cons hkey
      exact .cons (makes_attributeCode hp a (by omega)) (makesAll_entryCodes hp rest (by omega))

end

end Program

end Routecraft.Machine
