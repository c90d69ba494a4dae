import Routecraft.Proofs.Execution.Limits
import Routecraft.Proofs.Execution.Stalling
import Routecraft.Proofs.Verification.Soundness

/-!
# How runs end

The limit cuts off every run that goes on for too long. Still a run need not end: an instruction of it does not if it
fails over a value that leads to an array within itself, as the error tells of the value. There is no other way.

* `Program.StallsAt`: the next instruction of a frame has no end.
* `Program.invoke_endless_iff`: an invocation without an end comes to such an instruction.
* `Program.limit_only_cuts_off`: the limit has no other effect than to cut runs off.
* `nest_never_ends`: a run that puts an array into itself has no end, whatever the limit.
-/

namespace Routecraft.Machine

open Bytecode

namespace Program

variable {p : Program} {f : Frame} {callers : List Frame} {s t : Store} {receiver : Value} {name : String}
  {args : List Value} {n : Nat} {x : RunState}

/-- The next instruction of a frame has no end. -/
def StallsAt (p : Program) (f : Frame) (s : Store) : Prop :=
  ∃ i, f.method.code[f.pc]? = some i ∧ p.Stalls f.unit.pool s i f.stack

/-- A step has no end just if the next instruction of the frame has none. -/
theorem advance_endless_iff : s.Endless (p.advance f callers) ↔ p.StallsAt f s := by
  unfold advance StallsAt
  cases f.method.code[f.pc]? with
  | none => simp
  | some i => simp [step_endless_iff]

/-- A call that begins is without an end just if a call on the host is. -/
theorem opening_endless_iff : s.Endless (p.opening receiver name args) ↔ s.Endless (p.call receiver name args) := by
  unfold opening
  rw [bind_pure_comp, Store.endless_map]

/-- Before a budget is used up, a run comes to a frame whose next instruction is to be carried out on a store. -/
def Visits (p : Program) (budget : Nat) (start : RunState) (f : Frame) (t : Store) : Prop :=
  ∃ n < budget, ∃ callers, p.Executes start n (.ok (.running f callers), t)

/-- **A run comes to no end** at an instruction without one, or has none from the start. -/
theorem exists_executes_endless_iff {start : RunState} {budget : Nat} :
    (∃ n ≤ budget, ∃ t, p.Executes start n (.error .endless, t)) ↔
      start.1 = .error .endless ∨ ∃ f t, p.Visits budget start f t ∧ p.StallsAt f t := by
  constructor
  · rintro ⟨n, hn, t, hx⟩
    generalize hend : (Except.error MachineError.endless, t) = x at hx
    cases hx with
    | start => exact .inl (congrArg Prod.fst hend).symm
    | @step n f callers s hx =>
        refine .inr ⟨f, s, ⟨n, hn, callers, hx⟩, ?_⟩
        exact advance_endless_iff.mp (congrArg Prod.fst hend).symm
  · rintro (hstart | ⟨f, t, ⟨n, hn, callers, hx⟩, hstalls⟩)
    · obtain ⟨y, s⟩ := start
      obtain rfl : y = .error .endless := hstart
      exact ⟨0, Nat.zero_le budget, s, .start⟩
    · refine ⟨n + 1, hn, (t.perform (p.advance f callers)).2, ?_⟩
      rw [← show (t.perform (p.advance f callers)).1 = .error .endless from advance_endless_iff.mpr hstalls]
      exact .step hx

/-- Cutting off at the limit adds no run without an end, and takes none away. -/
theorem cutOff_eq_endless {limit : Nat} {y : Except MachineError Progress} :
    cutOff limit y = .error .endless ↔ y = .error .endless := by
  rcases y with e | ⟨f, callers⟩ | v <;> simp [cutOff]

/-- **An invocation without an end** comes, within its limit, to an instruction that has none, or calls at once what has
none. -/
theorem invoke_endless_iff : s.Endless (p.invoke receiver name args) ↔ s.Endless (p.call receiver name args) ∨
    ∃ f t, p.Visits p.stepLimit (s.perform (p.opening receiver name args)) f t ∧ p.StallsAt f t := by
  rw [← opening_endless_iff, Store.Endless, Store.Endless, ← exists_executes_endless_iff]
  constructor
  · intro h
    obtain ⟨n, hn, ⟨y, t⟩, hx, hover⟩ := p.exists_executes (s.perform (p.opening receiver name args)) p.stepLimit
    rw [perform_invoke_of_executes hx hn hover] at h
    obtain rfl := cutOff_eq_endless.mp h
    exact ⟨n, hn, t, hx⟩
  · rintro ⟨n, hn, t, hx⟩
    rw [perform_invoke_of_executes hx hn fun _ => trivial]
    rfl

/-- If the code of the application ends, a run without an end comes to a value that leads to an array within
itself. -/
theorem exists_value_of_endless (hp : p.HostEnds) (h : s.Endless (p.invoke receiver name args)) :
    (∃ v ∈ args, s.Looped v) ∨
      ∃ f t, p.Visits p.stepLimit (s.perform (p.opening receiver name args)) f t ∧
        ∃ v ∈ f.stack, t.Looped v := by
  rcases invoke_endless_iff.mp h with hcall | ⟨f, t, hvisits, i, -, hstalls⟩
  · exact .inl (hp.call hcall)
  · exact .inr ⟨f, t, hvisits, hstalls.exists_operand hp⟩

/-- The limit does not matter to whether the host ends. -/
theorem HostEnds.limitedTo (hp : p.HostEnds) (limit : Nat) : (p.limitedTo limit).HostEnds := ⟨hp.stubs, hp.statics⟩

/-- **The limit only cuts runs off.** Whatever method of whatever value is invoked, with any arguments and on any store:
the run carries out as many instructions as the limit allows, over all methods that it calls, or it is over before. It
comes to what it has come to by then, and is cut off only if it is not over. Unless its result is the error of the
limit, a larger limit makes no difference to the result, nor to the store that is left, with its objects, arrays,
exchanges and routes and the calls of its stubs.

A run that is over has an end, unless it has come to an instruction that has none, or called at once what has none. If
the code of the application has an end, there is then a value, among the arguments or on the stack, that leads to an
array within itself. -/
theorem limit_only_cuts_off (p : Program) {limit limit' : Nat} (hle : limit ≤ limit') (receiver : Value)
    (name : String) (args : List Value) (s : Store) :
    (∃ n ≤ limit, ∃ y s', (p.limitedTo limit).Executes
        (s.perform ((p.limitedTo limit).opening receiver name args)) n (y, s') ∧
      (n < limit → IsOver y) ∧
      s.perform ((p.limitedTo limit).invoke receiver name args) = (cutOff limit y, s')) ∧
    ((∀ l, (s.perform ((p.limitedTo limit).invoke receiver name args)).1 ≠ .error (.stepLimit l)) →
      s.perform ((p.limitedTo limit').invoke receiver name args) =
        s.perform ((p.limitedTo limit).invoke receiver name args)) ∧
    (s.Endless ((p.limitedTo limit).invoke receiver name args) ↔
      s.Endless ((p.limitedTo limit).call receiver name args) ∨ ∃ f t,
        (p.limitedTo limit).Visits limit (s.perform ((p.limitedTo limit).opening receiver name args)) f t ∧
          (p.limitedTo limit).StallsAt f t) ∧
    (p.HostEnds → s.Endless ((p.limitedTo limit).invoke receiver name args) →
      (∃ v ∈ args, s.Looped v) ∨ ∃ f t,
        (p.limitedTo limit).Visits limit (s.perform ((p.limitedTo limit).opening receiver name args)) f t ∧
          ∃ v ∈ f.stack, t.Looped v) := by
  obtain ⟨n, hn, ⟨y, s'⟩, hx, hover⟩ := (p.limitedTo limit).exists_executes
    (s.perform ((p.limitedTo limit).opening receiver name args)) limit
  have hinvoke := perform_invoke_of_executes hx hn hover
  refine ⟨⟨n, hn, y, s', hx, hover, hinvoke⟩, fun hlimit => ?_, invoke_endless_iff, fun hp =>
    exists_value_of_endless (hp.limitedTo limit)⟩
  have hconcurs := p.concurs_limitedTo limit limit'
  -- The run is over within the smaller limit, so the same instructions are all that the larger one sees.
  have hy : IsOver y := by
    apply isOver_of_cutOff_ne
    intro hcut
    exact hlimit limit ((congrArg Prod.fst hinvoke).trans hcut)
  have hx' := hx.congr hconcurs
  rw [hconcurs.opening] at hx'
  rw [hinvoke, perform_invoke_of_executes hx' (Nat.le_trans hn hle) fun _ => hy]
  exact congrArg (·, s') (hy.cutOff_eq limit' limit)

end Program

/-! ## An array within itself -/

/-- A method that puts an array into itself, and then takes it for a text. -/
def nest : Method where
  name := "nest"
  signature := .returning [] (.object Platform.object)
  maxStack := 3
  maxLocals := 2
  code := #[.pushInt 1, .onConst .newArray 0, .onLocal .store 1, .onLocal .load 1, .pushInt 0, .onLocal .load 1,
    .bare .arrayStore, .onLocal .load 1, .onConst .checkCast 1, .bare .returnValue]

def nester : CodeUnit :=
  ⟨"gen.Nest", .handler, [], ⟨#[.classRef Platform.object, .classRef Platform.string]⟩, [], [nest]⟩

def nested : Value := .array (DataType.array (.object Platform.object)).className 0

def nestFrame (pc : Nat) (locals stack : List Value) : Frame :=
  ⟨nester, nest, pc, (.object "gen.Nest" 0 :: locals).toArray, stack, true⟩

/-- The store with an object of the unit, and one array. -/
def nestStore (items : Array Value) : Store := { (Store.empty.newObject "gen.Nest").2 with arrays := #[items] }

/-- What a call of `nest` on a new object begins with. -/
def nestStart (limit : Nat) : RunState :=
  (Store.empty.newObject "gen.Nest").2.perform
    (((Program.single nester).limitedTo limit).opening (.object "gen.Nest" 0) "nest" [])

/-- After eight instructions the array is within itself. -/
theorem nest_executes (limit : Nat) : ((Program.single nester).limitedTo limit).Executes (nestStart limit) 8
    (.ok (.running (nestFrame 8 [nested] [nested]) []), nestStore #[nested]) := by
  have hstart : ((Program.single nester).limitedTo limit).Executes (nestStart limit) 0
      (.ok (.running (nestFrame 0 [] []) []), (Store.empty.newObject "gen.Nest").2) := .start
  have hmade : ((Program.single nester).limitedTo limit).Executes (nestStart limit) 2
      (.ok (.running (nestFrame 2 [] [nested]) []), nestStore #[.null]) := hstart.step.step
  have hloaded : ((Program.single nester).limitedTo limit).Executes (nestStart limit) 6
      (.ok (.running (nestFrame 6 [nested] [nested, .int 0, nested]) []), nestStore #[.null]) :=
    hmade.step.step.step.step
  exact hloaded.step.step

/-- The array within itself is looped. -/
theorem looped_nested : (nestStore #[nested]).Looped nested := by
  have hinner : (nestStore #[nested]).Inner 0 0 := ⟨nested, List.mem_singleton_self _, List.mem_singleton_self _⟩
  exact ⟨0, 0, List.mem_singleton_self _, .refl, .single hinner⟩

/-- Whatever the limit, the cast of the array within itself stalls. -/
theorem nest_stallsAt (limit : Nat) :
    ((Program.single nester).limitedTo limit).StallsAt (nestFrame 8 [nested] [nested]) (nestStore #[nested]) := by
  have hsub : Compile.Framework.hierarchy.isSubtype (DataType.array (.object Platform.object)).className
      Platform.string = false := by decide +kernel
  exact ⟨_, rfl, .checkCast rfl rfl hsub looped_nested⟩

/-- **With every limit that lets it come so far, the run has no end.** -/
theorem endless_nest {limit : Nat} (h : 9 ≤ limit) : (Store.empty.newObject "gen.Nest").2.Endless
    (((Program.single nester).limitedTo limit).invoke (.object "gen.Nest" 0) "nest" []) := by
  refine Program.invoke_endless_iff.mpr (.inr ⟨_, _, ⟨8, h, [], nest_executes limit⟩, nest_stallsAt limit⟩)

/-- The program has no host code. -/
theorem hostEnds_nester : (Program.single nester).HostEnds where
  stubs _ h := absurd h (Array.not_mem_empty _)
  statics _ h := absurd h List.not_mem_nil

/-- **A limit does not make every run end.** A unit that loads and links puts an array into itself and then takes it for
a text, and the run never comes to the end of its error, although the limit allows only so few instructions. -/
theorem nest_never_ends :
    (Loader.single nester).Built ∧ (Loader.single nester).link = .ok (Program.single nester) ∧
      (Program.single nester).unit? "gen.Nest" = some nester ∧ nester.method? "nest" = some nest ∧
      (Program.single nester).HostEnds ∧
      ∀ limit ≥ 9, (Store.empty.newObject "gen.Nest").2.Endless
        (((Program.single nester).limitedTo limit).invoke (.object "gen.Nest" 0) "nest" []) := by
  have hlink : (Loader.single nester).link = .ok (Program.single nester) :=
    Loader.link_single (by decide +kernel) (by decide +kernel)
  exact ⟨Loader.built_single rfl, hlink, rfl, rfl, hostEnds_nester, fun _ => endless_nest⟩

/-! ## A call within a call -/

/-- A method that gives a number. -/
def seven : Method := ⟨"seven", .returning [] .int, 1, 1, #[.pushInt 7, .bare .returnValue]⟩

/-- A method that notes in its object what the other one gives, and gives it back. -/
def keep : Method where
  name := "keep"
  signature := .returning [] .int
  maxStack := 3
  maxLocals := 2
  code := #[.onLocal .load 0, .onLocal .load 0, .onConst .invokeVirtual 0, .bare .dup, .onLocal .store 1,
    .onConst .putField 1, .onLocal .load 1, .bare .returnValue]

def keeper : CodeUnit where
  name := "gen.Keeper"
  role := .handler
  interfaces := []
  pool := ⟨#[.method ⟨"gen.Keeper", "seven", "()I"⟩, .field ⟨"gen.Keeper", "last", "I"⟩]⟩
  fields := []
  methods := [seven, keep]

/-- What a call of `keep` on a new object comes to. -/
def keptWithin (limit : Nat) : Except MachineError Value × Store :=
  (Store.empty.newObject "gen.Keeper").2.perform
    (((Program.mk [keeper] ∅ [] 0 #[]).limitedTo limit).invoke (.object "gen.Keeper" 0) "keep" [])

def comesTo (n : Int32) : Except MachineError Value → Bool
  | .ok (.int m) => m == n
  | _ => false

/-- The test of a number is true of it alone. -/
theorem eq_of_comesTo {n : Int32} {y : Except MachineError Value} (h : comesTo n y = true) : y = .ok (.int n) := by
  unfold comesTo at h
  split at h
  · rw [eq_of_beq h]
  · cases h

/-- The call takes ten instructions, two of them in the method that it calls. A call of `nest` has no end. -/
theorem limit_only_cuts_off_keeper :
    ((keptWithin 9).1.isOk = false ∧ (keptWithin 10).1 = .ok (.int 7) ∧
      (∀ l, (keptWithin 10).1 ≠ .error (.stepLimit l)) ∧ 10 ≤ 25 ∧ keptWithin 25 = keptWithin 10 ∧
      comesTo 7 (.ok ((keptWithin 25).2.field 0 "last")) = true) ∧
    (Program.single nester).HostEnds ∧ (Store.empty.newObject "gen.Nest").2.Endless
        (((Program.single nester).limitedTo 9).invoke (.object "gen.Nest" 0) "nest" []) ∧
      ∃ f t, ((Program.single nester).limitedTo 9).Visits 9 (nestStart 9) f t ∧ ∃ v ∈ f.stack, t.Looped v := by
  have hresult : (keptWithin 10).1 = .ok (.int 7) := by
    apply eq_of_comesTo
    decide +kernel
  have hlimit : ∀ l, (keptWithin 10).1 ≠ .error (.stepLimit l) := by simp [hresult]
  obtain ⟨-, hlarger, -, -⟩ := Program.limit_only_cuts_off (Program.mk [keeper] ∅ [] 0 #[]) (show 10 ≤ 25 by decide)
    (.object "gen.Keeper" 0) "keep" [] (Store.empty.newObject "gen.Keeper").2
  have hkept : keptWithin 25 = keptWithin 10 := hlarger hlimit
  obtain ⟨-, -, -, hvalue⟩ := Program.limit_only_cuts_off (Program.single nester) (Nat.le_refl 9)
    (.object "gen.Nest" 0) "nest" [] (Store.empty.newObject "gen.Nest").2
  have hendless := endless_nest (Nat.le_refl 9)
  have hvisits := (hvalue hostEnds_nester hendless).resolve_left (by simp)
  exact ⟨⟨by decide +kernel, hresult, hlimit, by decide, hkept, by decide +kernel⟩, hostEnds_nester, hendless, hvisits⟩

end Routecraft.Machine
