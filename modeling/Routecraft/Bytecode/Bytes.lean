import Routecraft.Bytecode.Error
import Routecraft.Text.Utf8

/-!
# Numbers and texts as bytes

The parts that a unit's bytes are made of: numbers with their most significant byte first, and texts behind
their length on two bytes. A reader takes its part off the front of the bytes and returns the rest; when
the bytes run out, it says how many are missing.

* `ofBigEndian_bigEndian`: the bytes of a number give the number back.
* `readMany`: a given count of parts, one after the other.
-/

namespace Routecraft.Bytecode

/-- A reader of parts of type `α`. -/
abbrev Reader (α : Type) := List UInt8 → Except UnitError (α × List UInt8)

/-! ## Numbers -/

/-- The last `count` bytes of a number, most significant first. -/
def bigEndian : (count n : Nat) → List UInt8
  | 0, _ => []
  | count + 1, n => bigEndian count (n / 256) ++ [UInt8.ofNat n]

def ofBigEndian (bytes : List UInt8) : Nat := bytes.foldl (fun n b => n * 256 + b.toNat) 0

/-- A further byte is the least digit of the number. -/
theorem ofBigEndian_append_singleton (bytes : List UInt8) (b : UInt8) :
    ofBigEndian (bytes ++ [b]) = ofBigEndian bytes * 256 + b.toNat := by
  simp [ofBigEndian]

/-- Bytes hold what fits into them of a number. -/
theorem ofBigEndian_bigEndian (count n : Nat) :
    ofBigEndian (bigEndian count n) = n % Nat.pow 256 count := by
  induction count generalizing n with
  | zero => simp [bigEndian, ofBigEndian, Nat.mod_one]
  | succ count ih =>
    rw [bigEndian, ofBigEndian_append_singleton, ih]
    show _ = n % (Nat.pow 256 count * 256)
    rw [Nat.mul_comm (Nat.pow 256 count), Nat.mod_mul, UInt8.toNat_ofNat']
    omega

@[simp] theorem length_bigEndian (count n : Nat) : (bigEndian count n).length = count := by
  induction count generalizing n with
  | zero => rfl
  | succ count ih => simp [bigEndian, ih]

def bytes16 (n : UInt16) : List UInt8 := bigEndian 2 n.toNat

def bytes32 (n : UInt32) : List UInt8 := bigEndian 4 n.toNat

def bytes64 (n : UInt64) : List UInt8 := bigEndian 8 n.toNat

/-- Takes `count` bytes onto those taken before, which are in reverse. -/
def takeOnto (part : String) : (count : Nat) → (taken : List UInt8) → Reader (List UInt8)
  | 0, taken, bytes => .ok (taken.reverse, bytes)
  | count + 1, _, [] => .error (.truncated part (count + 1))
  | count + 1, taken, b :: bytes => takeOnto part count (b :: taken) bytes

def take (part : String) (count : Nat) : Reader (List UInt8) := takeOnto part count []

def readNat (part : String) (count : Nat) : Reader Nat := fun bytes => do
  let (taken, rest) ← take part count bytes
  .ok (ofBigEndian taken, rest)

def read8 (part : String) : Reader UInt8 := fun bytes => do
  let (n, rest) ← readNat part 1 bytes
  .ok (UInt8.ofNat n, rest)

def read16 (part : String) : Reader UInt16 := fun bytes => do
  let (n, rest) ← readNat part 2 bytes
  .ok (UInt16.ofNat n, rest)

def read32 (part : String) : Reader UInt32 := fun bytes => do
  let (n, rest) ← readNat part 4 bytes
  .ok (UInt32.ofNat n, rest)

def read64 (part : String) : Reader UInt64 := fun bytes => do
  let (n, rest) ← readNat part 8 bytes
  .ok (UInt64.ofNat n, rest)

/-! ## Counts, texts and sequences -/

def countBytes (table : String) (count : Nat) : Except UnitError (List UInt8) :=
  if count < 65536 then .ok (bigEndian 2 count) else .error (.tableOverflow table)

/-- The bytes of a text behind their count. -/
def textBytes (s : String) : Except UnitError (List UInt8) :=
  let bytes := Text.utf8 s
  if bytes.length < 65536 then .ok (bigEndian 2 bytes.length ++ bytes)
  else .error (.stringTooLong bytes.length)

def readText (part : String) : Reader String := fun bytes => do
  let (count, rest) ← readNat part 2 bytes
  let (taken, rest') ← take part count rest
  match Text.ofUtf8? taken with
  | some s => .ok (s, rest')
  | none => .error (.invalidUtf8 part)

def concatBytes {α : Type} (bytesOf : α → Except UnitError (List UInt8)) (items : List α) :
    Except UnitError (List UInt8) := do
  let parts ← items.mapM bytesOf
  .ok parts.flatten

/-- Reads `count` parts onto those read before, which are in reverse. -/
def readManyOnto {α : Type} (read : Reader α) : (count : Nat) → (done : List α) → Reader (List α)
  | 0, done, bytes => .ok (done.reverse, bytes)
  | count + 1, done, bytes =>
    match read bytes with
    | .ok (x, rest) => readManyOnto read count (x :: done) rest
    | .error e => .error e

def readMany {α : Type} (read : Reader α) (count : Nat) : Reader (List α) :=
  readManyOnto read count []

end Routecraft.Bytecode
