import Routecraft.Proofs.Assembly.Drafting
import Routecraft.Proofs.Verification.Stability

/-!
# Units put together from parts

A draft takes parts in any number: classes to check against, interfaces, fields, and methods, of which those that
fail are left out. When all classes are told before the first method, the unit that results is accepted with the
same classes, and each of its methods needs exactly the frame that it declares. Constants that later methods
enter do no harm, not even those of methods that fail, and neither does the order in which the classes were told.

* `Draft.add`, `Draft.addAll`: adding parts, and what came of each.
* `Draft.pool_addAll`: the pool only grows.
* `Draft.addAll_toldBy`: the classes that a draft knows.
* `Draft.addAll_drafted`: the methods of a draft are those that were accepted.
* `Draft.unit_verified`: the unit put together is accepted.
-/

namespace Routecraft.Bytecode

/-! ## Pools grow -/

namespace Assembler

variable {labels : Array (Option UInt16)}

theorem assembleInstr_extends (b : Interner) (i : Instr Constant) :
    b.pool.Extends (assembleInstr labels b i).1.pool := by
  rcases i with op | ⟨op, slot⟩ | n | ⟨op, c⟩ | ⟨op, label⟩
  · exact .refl _
  · exact .refl _
  · exact .refl _
  · have hextends := b.intern_extends c
    rw [assembleInstr]
    split <;> next hintern => rw [hintern] at hextends; exact hextends
  · rw [assembleInstr]
    split <;> exact .refl _

/-- The constants that were entered before an error remain. -/
theorem assembleOnto_extends (done : Code) (b : Interner) (is : List (Instr Constant)) :
    b.pool.Extends (assembleOnto labels done b is).1.pool := by
  induction is generalizing done b with
  | nil => exact .refl _
  | cons i is ih =>
      have hextends : b.pool.Extends (assembleInstr labels b i).1.pool := assembleInstr_extends b i
      rw [assembleOnto]
      split
      · next hi =>
        rw [hi] at hextends
        exact hextends.trans (ih _ _)
      · next hi =>
        rw [hi] at hextends
        exact hextends

/-- Assembling a method only adds constants. -/
theorem assemble_extends (a : Assembler) (b : Interner) : b.pool.Extends (a.assemble b).1.pool := by
  rw [assemble]
  split
  · exact assembleOnto_extends _ _ _
  · exact .refl _

end Assembler

/-! ## Parts -/

/-- A method as it is written down. -/
structure WrittenMethod where
  name : String
  signature : Signature
  code : Assembler

namespace Draft

/-- What a unit is put together from. -/
inductive Part where
  /-- Classes that methods are checked against. -/
  | classes (h : Hierarchy)
  | interface (name : String)
  | field (name : String) (type : DataType)
  | method (m : WrittenMethod)

def Part.isMethod : Part → Bool
  | method _ => true
  | _ => false

/-- Whether methods are checked against what a part tells. -/
def Part.tellsClasses : Part → Bool
  | classes _ => true
  | interface _ => true
  | _ => false

/-- Adds a part, or tells what is wrong with it. -/
def add (d : Draft) : Part → Draft × Except UnitError Unit
  | .classes h => (d.withHierarchy h, .ok ())
  | .interface name => (d.implement name, .ok ())
  | .field name type => (d.addField name type, .ok ())
  | .method m => d.addMethod m.name m.signature m.code

/-- Adds parts one after the other, and tells what came of each. -/
def addAll (d : Draft) : List Part → Draft × List (Except UnitError Unit)
  | [] => (d, [])
  | p :: parts =>
    let (d, result) := d.add p
    let (d, results) := d.addAll parts
    (d, result :: results)

theorem fst_addAll_cons (d : Draft) (p : Part) (parts : List Part) :
    (d.addAll (p :: parts)).1 = ((d.add p).1.addAll parts).1 := rfl

theorem snd_addAll_cons (d : Draft) (p : Part) (parts : List Part) :
    (d.addAll (p :: parts)).2 = (d.add p).2 :: ((d.add p).1.addAll parts).2 := rfl

/-- The methods among parts that were accepted. -/
def accepted (parts : List Part) (results : List (Except UnitError Unit)) : List WrittenMethod :=
  (parts.zip results).filterMap fun
    | (.method m, .ok ()) => some m
    | _ => none

variable {d : Draft} {p : Part} {parts : List Part}

/-! ## What adding keeps -/

/-- A method that is left out leaves its constants behind. -/
theorem addMethod_eq_error {name : String} {s : Signature} {a : Assembler} {d' : Draft} {e : UnitError}
    (h : d.addMethod name s a = (d', .error e)) :
    d.constants.pool.Extends d'.constants.pool ∧ d' = { d with constants := d'.constants } := by
  have hextends := a.assemble_extends d.constants
  unfold addMethod at h
  rcases hcode : a.assemble d.constants with ⟨constants, e' | code⟩ <;> simp only [hcode] at h hextends
  · cases h
    exact ⟨hextends, rfl⟩
  · split at h
    · cases h
      exact ⟨hextends, rfl⟩
    · simp at h

/-- All that adding a method can come to. -/
theorem add_method_cases (d : Draft) (m : WrittenMethod) :
    d.constants.pool.Extends (d.add (.method m)).1.constants.pool ∧
      ((∃ e, (d.add (.method m)).2 = .error e ∧
          (d.add (.method m)).1 = { d with constants := (d.add (.method m)).1.constants }) ∨
        (d.add (.method m)).2 = .ok () ∧
          ∃ added, (d.add (.method m)).1 =
              { d with constants := (d.add (.method m)).1.constants, methods := d.methods ++ [added] } ∧
            added.Drafted (d.add (.method m)).1.constants.pool d.name d.hierarchy m.name m.signature m.code) := by
  rcases h : d.addMethod m.name m.signature m.code with ⟨d', e | ⟨⟩⟩
  · obtain ⟨hextends, heq⟩ := addMethod_eq_error h
    simp only [add, h]
    exact ⟨hextends, .inl ⟨e, rfl, heq⟩⟩
  · obtain ⟨hextends, added, heq, hdrafted⟩ := addMethod_eq_ok h
    simp only [add, h]
    exact ⟨hextends, .inr ⟨trivial, added, heq, hdrafted⟩⟩

/-- Whatever part is added, the constants of a draft stay at their places. -/
theorem pool_add (d : Draft) (p : Part) : d.constants.pool.Extends (d.add p).1.constants.pool := by
  cases p with
  | classes h => exact .refl _
  | interface name => exact .refl _
  | field name type => exact .refl _
  | method m => exact (add_method_cases d m).1

theorem name_add (d : Draft) (p : Part) : (d.add p).1.name = d.name := by
  cases p with
  | classes h => rfl
  | interface name => rfl
  | field name type => rfl
  | method m =>
      obtain ⟨-, ⟨e, -, heq⟩ | ⟨-, added, heq, -⟩⟩ := add_method_cases d m <;> rw [heq]

/-- A part that tells no classes changes nothing of what methods are checked against. -/
theorem hierarchy_add (h : p.tellsClasses = false) :
    (d.add p).1.hierarchy = d.hierarchy ∧ (d.add p).1.interfaces = d.interfaces := by
  cases p with
  | classes h' => cases h
  | interface name => cases h
  | field name type => exact ⟨rfl, rfl⟩
  | method m =>
      obtain ⟨-, ⟨e, -, heq⟩ | ⟨-, added, heq, -⟩⟩ := add_method_cases d m <;> rw [heq] <;> exact ⟨rfl, rfl⟩

/-- A part that is no method leaves the methods as they are. -/
theorem methods_add (h : p.isMethod = false) : (d.add p).1.methods = d.methods ∧ (d.add p).2 = .ok () := by
  cases p with
  | classes h' => exact ⟨rfl, rfl⟩
  | interface name => exact ⟨rfl, rfl⟩
  | field name type => exact ⟨rfl, rfl⟩
  | method m => cases h

/-- The pool only grows. -/
theorem pool_addAll (d : Draft) (parts : List Part) : d.constants.pool.Extends (d.addAll parts).1.constants.pool := by
  induction parts generalizing d with
  | nil => exact .refl _
  | cons p parts ih => exact (pool_add d p).trans (ih _)

theorem name_addAll (d : Draft) (parts : List Part) : (d.addAll parts).1.name = d.name := by
  induction parts generalizing d with
  | nil => rfl
  | cons p parts ih => exact (ih _).trans (name_add d p)

/-- Parts that tell nothing of classes leave the hierarchy alone. -/
theorem hierarchy_addAll (h : ∀ p ∈ parts, p.tellsClasses = false) : (d.addAll parts).1.hierarchy = d.hierarchy := by
  induction parts generalizing d with
  | nil => rfl
  | cons p parts ih =>
      obtain ⟨hp, hparts⟩ := List.forall_mem_cons.mp h
      exact (ih hparts).trans (hierarchy_add hp).1

/-! ## Classes -/

/-- The edges that a draft knows are those that were told to it, and one to each of its interfaces. -/
def ToldBy (d : Draft) (told : String × String → Prop) : Prop :=
  ∀ e, e ∈ d.hierarchy.edges ↔ told e ∨ ∃ sup ∈ d.interfaces, e = (d.name, sup)

/-- The edges that a part tells, apart from those of an interface. -/
def Part.Tells : Part → String × String → Prop
  | classes h, e => e ∈ h.edges
  | _, _ => False

/-- A part adds no edges but those that it tells of. -/
theorem ToldBy.add {told : String × String → Prop} (hd : d.ToldBy told) (p : Part) :
    (d.add p).1.ToldBy fun e => told e ∨ p.Tells e := by
  intro e
  cases p with
  | classes h =>
      show e ∈ d.hierarchy.edges ++ h.edges ↔ _
      rw [List.mem_append, hd e]
      exact or_right_comm
  | interface name =>
      show e ∈ d.hierarchy.edges ++ [(d.name, name)] ↔
        (told e ∨ False) ∨ ∃ sup ∈ d.interfaces ++ [name], e = (d.name, sup)
      rw [List.mem_append, hd e]
      simp [or_and_right, exists_or, or_assoc]
  | field name type =>
      show e ∈ d.hierarchy.edges ↔ (told e ∨ False) ∨ ∃ sup ∈ d.interfaces, e = (d.name, sup)
      rw [or_false]
      exact hd e
  | method m =>
      obtain ⟨hhierarchy, hinterfaces⟩ := hierarchy_add (d := d) (p := .method m) rfl
      rw [hhierarchy, hinterfaces, name_add, hd e]
      show _ ↔ (told e ∨ False) ∨ _
      rw [or_false]

/-- **The classes that a draft knows** are those that its parts tell, in whatever order. -/
theorem addAll_toldBy {told : String × String → Prop} (hd : d.ToldBy told) (parts : List Part) :
    (d.addAll parts).1.ToldBy fun e => told e ∨ ∃ p ∈ parts, p.Tells e := by
  induction parts generalizing d told with
  | nil =>
      intro e
      show e ∈ d.hierarchy.edges ↔ _
      rw [hd e]
      simp
      rfl
  | cons p parts ih =>
      intro e
      have h := ih (hd.add p) e
      rw [fst_addAll_cons, h]
      simp only [List.mem_cons, exists_eq_or_imp, or_assoc]

/-! ## Methods -/

/-- The methods of a draft are written ones that were accepted with these classes. -/
theorem accepted_cons_method {m : WrittenMethod} {results : List (Except UnitError Unit)} :
    accepted (.method m :: parts) (.ok () :: results) = m :: accepted parts results := rfl

theorem accepted_cons_error {m : WrittenMethod} {e : UnitError} {results : List (Except UnitError Unit)} :
    accepted (.method m :: parts) (.error e :: results) = accepted parts results := rfl

theorem accepted_cons_other {result : Except UnitError Unit} {results : List (Except UnitError Unit)}
    (h : p.isMethod = false) : accepted (p :: parts) (result :: results) = accepted parts results := by
  cases p with
  | method m => cases h
  | _ => rfl

/-- **The methods of a draft are those that were accepted**, in order, if no classes are told after the first. -/
theorem addAll_drafted (horder : parts.Pairwise fun p q => p.isMethod = true → q.tellsClasses = false) :
    ∃ added, (d.addAll parts).1.methods = d.methods ++ added ∧
      List.Forall₂ (fun w (m : Method) => m.Drafted (d.addAll parts).1.constants.pool d.name
        (d.addAll parts).1.hierarchy w.name w.signature w.code) (accepted parts (d.addAll parts).2) added := by
  induction parts generalizing d with
  | nil => exact ⟨[], by simp [addAll], .nil⟩
  | cons p parts ih =>
      obtain ⟨hp, hparts⟩ := List.pairwise_cons.mp horder
      obtain ⟨added, hmethods, hadded⟩ := ih (d := (d.add p).1) hparts
      rw [name_add] at hadded
      rw [fst_addAll_cons, snd_addAll_cons]
      by_cases hmethod : p.isMethod = true
      · obtain ⟨m, rfl⟩ : ∃ m, p = .method m := by
          cases p with
          | method m => exact ⟨m, rfl⟩
          | _ => cases hmethod
        have hhierarchy : ((d.add (.method m)).1.addAll parts).1.hierarchy = d.hierarchy :=
          (hierarchy_addAll fun q hq => hp q hq rfl).trans (hierarchy_add rfl).1
        obtain ⟨-, ⟨e, hresult, heq⟩ | ⟨hresult, first, heq, hfirst⟩⟩ := add_method_cases d m
        · rw [hresult, accepted_cons_error]
          refine ⟨added, ?_, hadded⟩
          rw [hmethods, heq]
        · rw [hresult, accepted_cons_method]
          refine ⟨first :: added, ?_, .cons ?_ hadded⟩
          · rw [hmethods, heq, List.append_assoc]
            rfl
          · -- The classes are the ones that the method was checked against; constants may have come.
            rw [hhierarchy]
            exact hfirst.extend (pool_addAll _ parts)
      · rw [Bool.not_eq_true] at hmethod
        rw [accepted_cons_other hmethod]
        refine ⟨added, ?_, hadded⟩
        rw [hmethods, (methods_add hmethod).1]

end Draft

/-! ## Verification again -/

/-- What was inferred for a drafted method is inferred for it in its unit, with the same classes. -/
theorem Method.Drafted.verifyMethod {u : CodeUnit} {h h' : Hierarchy} {name : String} {s : Signature} {a : Assembler}
    {m : Method} (hm : m.Drafted u.pool u.name h name s a)
    (hedges : ∀ e, e ∈ h.edges ↔ e ∈ (u.hierarchyWith h').edges) :
    verifyMethod u.name m.name m.signature m.code u.pool (u.hierarchyWith h') = .ok ⟨m.maxStack, m.maxLocals⟩ := by
  obtain ⟨pool, i, hpool, hi, hframe⟩ := hm.accepted
  unfold Bytecode.verifyMethod
  rw [inferWithin_widen hpool hedges (roundLimit_mono _ _ hpool) hi]
  exact hframe

/-- A method is accepted in its unit if it declares the frame that it needs. -/
theorem CodeUnit.verifyMethodOf_of_frame {u : CodeUnit} {h : Hierarchy} {m : Method}
    (hm : verifyMethod u.name m.name m.signature m.code u.pool (u.hierarchyWith h) = .ok ⟨m.maxStack, m.maxLocals⟩) :
    u.verifyMethodOf (u.rounds m) h m = .ok () := by
  obtain ⟨i, hi, hframe⟩ := bind_eq_ok.mp hm
  unfold verifyMethodOf infer rounds
  rw [hi]
  show (i.frame >>= _) = _
  rw [hframe]
  simp [bind, Except.bind]

/-- **A unit that was put together is accepted** with the classes that its parts told, as long as they were told
before the first method: every method needs the frame that it declares, and the methods are those that were
accepted when they were added, in order, with the code that was written down for them. -/
theorem Draft.unit_verified (name : String) (role : Role) {parts : List Draft.Part}
    (horder : parts.Pairwise fun p q => p.isMethod = true → q.tellsClasses = false) {h : Hierarchy}
    (hclasses : ∀ e, e ∈ h.edges ↔ ∃ g, Draft.Part.classes g ∈ parts ∧ e ∈ g.edges) :
    let built := (Draft.new name role).addAll parts
    let u := built.1.toUnit
    u.verify h = .ok () ∧
    (∀ m ∈ u.methods, verifyMethod u.name m.name m.signature m.code u.pool (u.hierarchyWith h) =
      .ok ⟨m.maxStack, m.maxLocals⟩) ∧
    List.Forall₂ (fun (w : WrittenMethod) (m : Method) => m.name = w.name ∧ m.signature = w.signature ∧
        List.Forall₂ (Instr.Resolves u.pool w.code.labels) m.code.toList w.code.instrs.toList)
      (Draft.accepted parts built.2) u.methods := by
  intro built u
  obtain ⟨added, hmethods, hadded⟩ := addAll_drafted (d := Draft.new name role) horder
  obtain rfl : u.methods = added := hmethods
  have hname : u.name = name := name_addAll _ parts
  -- The draft knows just the classes that its parts told, and the unit is checked with these.
  have hedges : ∀ e, e ∈ built.1.hierarchy.edges ↔ e ∈ (u.hierarchyWith h).edges := by
    intro e
    have htold : (Draft.new name role).ToldBy fun _ => False := by
      intro e
      simp [new, Hierarchy.empty]
    have hknown := addAll_toldBy htold parts e
    have htells : (∃ p ∈ parts, p.Tells e) ↔ ∃ g, Part.classes g ∈ parts ∧ e ∈ g.edges := by
      constructor
      · rintro ⟨p, hp, he⟩
        cases p with
        | classes g => exact ⟨g, hp, he⟩
        | _ => cases he
      · rintro ⟨g, hg, he⟩
        exact ⟨_, hg, he⟩
    simp only [false_or, htells] at hknown
    rw [CodeUnit.mem_edges_hierarchyWith, hclasses e]
    exact hknown
  have hverified : ∀ m ∈ u.methods, verifyMethod u.name m.name m.signature m.code u.pool (u.hierarchyWith h) =
      .ok ⟨m.maxStack, m.maxLocals⟩ := by
    intro m hm
    obtain ⟨w, -, hdrafted⟩ := exists_left_of_mem hadded hm
    have howner : (Draft.new name role).name = u.name := hname.symm
    rw [howner] at hdrafted
    exact Method.Drafted.verifyMethod hdrafted hedges
  refine ⟨?_, hverified, hadded.imp fun w m hm => ⟨hm.name, hm.signature, hm.code⟩⟩
  exact forM_eq_ok.mpr fun m hm => CodeUnit.verifyMethodOf_of_frame (hverified m hm)

/-- Code that gives one of two things back, where its paths meet. -/
def eitherCode : Assembler :=
  let (other, a) := Assembler.empty.newLabel
  let (both, a) := a.newLabel
  let a := (a.emit (.load 1)).jump .ifFalse other
  let a := (a.emit (.load 2)).jump .goto both
  let a := (a.bind other).emit (.load 3)
  (a.bind both).emit .returnValue

/-- The parts of a unit with a method that fails after it has entered a constant, and then one whose paths meet. -/
def chooserParts : List Draft.Part :=
  [.classes ⟨[("gen.Cat", "gen.Pet")]⟩,
    .interface "gen.Chooser",
    .classes ⟨[("gen.Pet", "gen.Animal"), ("gen.Cat", "gen.Pet")]⟩,
    .method ⟨"broken", ⟨[], none⟩, Assembler.empty.emitAll [.string "left", .pop, .pop, .returnVoid]⟩,
    .field "last" (.object "gen.Pet"),
    .method ⟨"either", ⟨[.boolean, .object "gen.Cat", .object "gen.Animal"], some (.object "gen.Animal")⟩, eitherCode⟩]

/-- A unit that keeps one of two methods. -/
theorem Draft.unit_verified_chooser :
    (chooserParts.Pairwise fun p q => p.isMethod = true → q.tellsClasses = false) ∧
    ∃ u, u = ((Draft.new "gen.Cats" .handler).addAll chooserParts).1.toUnit ∧
      u.pool.size = 1 ∧ u.methods.map (·.name) = ["either"] ∧
      u.verify ⟨[("gen.Pet", "gen.Animal"), ("gen.Cat", "gen.Pet")]⟩ = .ok () := by
  have horder : chooserParts.Pairwise fun p q => p.isMethod = true → q.tellsClasses = false := by
    simp [chooserParts, Part.isMethod, Part.tellsClasses]
  refine ⟨horder, _, rfl, by decide +kernel, by decide +kernel, ?_⟩
  refine (unit_verified "gen.Cats" .handler horder fun e => ?_).1
  grind [chooserParts]

end Routecraft.Bytecode
