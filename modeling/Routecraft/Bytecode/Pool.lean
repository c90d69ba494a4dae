import Routecraft.Bytecode.Constant
import Routecraft.Bytecode.Error

/-!
# Constant pools

The constants of a unit, numbered from zero by 16 bit indices. A finished pool is just its entries; it may
hold a constant twice. A pool under construction is an `Interner`, which also knows the first place of each
constant, so that a constant is entered once.

* `Pool.get`, `Pool.classAt`, `Pool.fieldAt`, `Pool.methodAt`: the constant at an index.
* `Interner.intern`: the place of a constant, which is entered if it is new.
* `Interner.intern_of_mem`: a constant of the pool keeps the place where it first stands.
-/

namespace Routecraft.Bytecode

/-- The constants of a unit, in order. -/
structure Pool where
  entries : Array Constant
  deriving DecidableEq, Repr

namespace Pool

def empty : Pool := ⟨#[]⟩

def size (p : Pool) : Nat := p.entries.size

def toList (p : Pool) : List Constant := p.entries.toList

def push (p : Pool) (c : Constant) : Pool := ⟨p.entries.push c⟩

@[simp] theorem toList_empty : empty.toList = [] := rfl

@[simp] theorem toList_push (p : Pool) (c : Constant) : (p.push c).toList = p.toList ++ [c] := by
  simp [toList, push]

@[simp] theorem length_toList (p : Pool) : p.toList.length = p.size := by
  simp [toList, size]

@[simp] theorem size_push (p : Pool) (c : Constant) : (p.push c).size = p.size + 1 := by
  simp [size, push]

def get (p : Pool) (i : UInt16) : Except UnitError Constant :=
  match p.entries[i.toNat]? with
  | some c => .ok c
  | none => .error (.badConstant i .outOfRange)

def classAt (p : Pool) (i : UInt16) : Except UnitError String := do
  match ← p.get i with
  | .classRef name => .ok name
  | c => .error (.badConstant i (.expected "class" c.kindName))

def fieldAt (p : Pool) (i : UInt16) : Except UnitError Member := do
  match ← p.get i with
  | .field m => .ok m
  | c => .error (.badConstant i (.expected "field" c.kindName))

/-- The method at an index, of an interface or of a class. -/
def methodAt (p : Pool) (i : UInt16) (ofInterface : Bool) : Except UnitError Member := do
  match ← p.get i, ofInterface with
  | .method m, false => .ok m
  | .interfaceMethod m, true => .ok m
  | c, false => .error (.badConstant i (.expected "method" c.kindName))
  | c, true => .error (.badConstant i (.expected "interface method" c.kindName))

end Pool

/-! ## Pools under construction -/

/-- The largest number of constants that 16 bit indices reach. -/
def poolLimit : Nat := 65536

/-- A pool with the first place of each of its constants. -/
structure Interner where
  pool : Pool
  places : Std.TreeMap Constant Nat Constant.order
  places_eq : ∀ c, places[c]? = pool.toList.idxOf? c
  size_le : pool.size ≤ poolLimit

namespace Interner

def empty : Interner where
  pool := .empty
  places := ∅
  places_eq c := by simp
  size_le := Nat.zero_le _

instance : Inhabited Interner := ⟨empty⟩

/-- Appends a constant, whether the pool holds it or not. -/
def append (b : Interner) (c : Constant) (h : b.pool.size < poolLimit) : Interner where
  pool := b.pool.push c
  places := b.places.insertIfNew c b.pool.size
  places_eq d := by
    have hc := b.places_eq c
    have hd := b.places_eq d
    rw [Std.TreeMap.getElem?_insertIfNew, Pool.toList_push, List.idxOf?, List.findIdx?_append]
    rw [List.idxOf?] at hc hd
    by_cases hcd : c = d
    · subst hcd
      by_cases hm : c ∈ b.places
      · rw [← hc, Std.TreeMap.getElem?_eq_some_getElem hm]; simp [hm]
      · rw [← hc]; simp [hm, Constant.order_eq]
    · simp [Constant.order_eq, hcd, hd]
  size_le := by rw [Pool.size_push]; exact h

/-- The place of a constant, which is appended if the pool does not hold it and is not full. -/
def intern (b : Interner) (c : Constant) : Interner × Except UnitError UInt16 :=
  match b.places[c]? with
  | some i => (b, .ok (UInt16.ofNat i))
  | none =>
    if h : b.pool.size < poolLimit then
      let size := b.pool.size
      (b.append c h, .ok (UInt16.ofNat size))
    else (b, .error (.tableOverflow "constant pool"))

/-- A constant of the pool keeps the place where it first stands. -/
theorem intern_of_mem {b : Interner} {c : Constant} (h : c ∈ b.pool.toList) :
    b.intern c = (b, .ok (UInt16.ofNat (b.pool.toList.idxOf c))) := by
  have hi : b.places[c]? = some (b.pool.toList.idxOf c) := by
    rw [b.places_eq, List.idxOf?, List.idxOf, List.findIdx?_eq_some_iff_findIdx_eq]
    exact ⟨List.findIdx_lt_length_of_exists ⟨c, h, by simp⟩, rfl⟩
  simp [intern, hi]

/-- A constant that the pool does not hold goes to its end. -/
theorem intern_of_not_mem {b : Interner} {c : Constant} (h : c ∉ b.pool.toList)
    (room : b.pool.size < poolLimit) :
    b.intern c = (b.append c room, .ok (UInt16.ofNat b.pool.size)) := by
  have hi : b.places[c]? = none := by rw [b.places_eq]; simpa using h
  simp [intern, hi, room]

end Interner

end Routecraft.Bytecode
