import Routecraft.Proofs.Execution.Confinement

/-!
# Closed worlds

Objects of units come about in two ways. The host asks for one, and is refused if its unit is not loaded; or a loaded
unit has an instruction for one, and linking has failed unless there is such a unit. So a linked program has the units
of all objects that it creates. As long as no others are brought in from outside, it is for want of a unit only when it
is asked for one that it does not have.

* `Demand`: what the host may ask of a program.
* `Demand.Invokes`, `Demand.exists_invokes`: the methods that are invoked for it, and what it comes to.
* `Event`, `Program.history`: demands, and what the host does between them.
* `Program.Creates`: the objects that a program creates.
* `Program.link_closes_world`: **linking closes the world**.
-/

namespace Routecraft.Machine

open Bytecode

variable {p : Program} {l : Loader}

/-! ## What the host may ask for -/

/-- What the host may ask of a program. -/
inductive Demand where
  | instantiate (unit : String) (provider : Value)
  | install (unit : String) (provider : Value) (router : Nat)
  | invoke (receiver : Value) (name : String) (args : List Value)
  | dispatch (handler : Value) (exchange : Nat)

/-- A method to be invoked on a value. -/
structure Invocation where
  receiver : Value
  name : String
  args : List Value

def Invocation.act (p : Program) (i : Invocation) : Action Value := p.invoke i.receiver i.name i.args

def Invocation.opening (p : Program) (i : Invocation) : Action Progress := p.opening i.receiver i.name i.args

namespace Demand

open Compile (Framework.constructorName Framework.installName Framework.applyName)

/-- The values that come with a demand. -/
def values : Demand → List Value
  | instantiate _ provider | install _ provider _ => [provider]
  | invoke receiver _ args => receiver :: args
  | dispatch handler _ => [handler]

def unit? : Demand → Option String
  | instantiate unit _ | install unit _ _ => some unit
  | invoke .. | dispatch .. => none

/-- How a program meets a demand: with a value, unless it is to install routes. -/
def meet (p : Program) : Demand → Action (Option Value)
  | instantiate unit provider => some <$> p.instantiate unit provider
  | install unit provider router => (fun _ => none) <$> p.install unit provider router
  | invoke receiver name args => some <$> p.invoke receiver name args
  | dispatch handler exchange => some <$> p.dispatch handler exchange

/-- For a demand on a store, a method is invoked on another store. -/
inductive Invokes (p : Program) : Demand → Store → Invocation → Store → Prop
  | invoked {receiver : Value} {name : String} {args : List Value} {s : Store} :
      Invokes p (.invoke receiver name args) s ⟨receiver, name, args⟩ s
  | dispatched {handler context : Value} {exchange : Nat} {s s' : Store} :
      s.perform (handleTo Platform.context (.context exchange)) = (.ok context, s') →
      Invokes p (.dispatch handler exchange) s ⟨handler, Framework.applyName, [context]⟩ s'
  | constructed {unit : String} {provider : Value} {s : Store} : (p.unit? unit).isSome →
      Invokes p (.instantiate unit provider) s
        ⟨(s.newObject unit).1, Framework.constructorName, [provider]⟩ (s.newObject unit).2
  | prepared {unit : String} {provider : Value} {router : Nat} {s s' : Store} {i : Invocation} :
      Invokes p (.instantiate unit provider) s i s' → Invokes p (.install unit provider router) s i s'
  | installed {unit : String} {provider registration target : Value} {router : Nat} {s s₁ s' : Store} :
      s.perform (p.instantiate unit provider) = (.ok registration, s₁) →
      s₁.perform (handleTo Platform.router (.router router)) = (.ok target, s') →
      Invokes p (.install unit provider router) s ⟨registration, Framework.installName, [target]⟩ s'

variable {d : Demand} {s : Store}

/-- Without its unit, no object is made. -/
theorem perform_instantiate_of_none {unit : String} (provider : Value) (hnone : p.unit? unit = none) :
    s.perform (p.instantiate unit provider) = (.error (.unknownUnit unit), s) := by
  unfold Program.instantiate
  rw [hnone]
  rfl

/-- A demand for a unit that is not loaded is refused. -/
theorem meet_of_none {unit : String} (hunit : d.unit? = some unit) (hnone : p.unit? unit = none) :
    s.perform (d.meet p) = (.error (.unknownUnit unit), s) := by
  cases d with
  | instantiate _ provider =>
      cases hunit
      rw [meet, Store.perform_map, perform_instantiate_of_none provider hnone]
      rfl
  | install _ provider router =>
      cases hunit
      rw [meet, Store.perform_map, Program.install, Store.perform_bind, perform_instantiate_of_none provider hnone]
      rfl
  | invoke _ _ _ | dispatch _ _ => cases hunit

/-- An object is made and its constructor called, with the provider. -/
theorem perform_instantiate {unit : String} (provider : Value) (hunit : (p.unit? unit).isSome) :
    s.perform (p.instantiate unit provider) =
      (((s.newObject unit).2.perform (p.invoke (s.newObject unit).1 Framework.constructorName [provider])).1.map
          fun _ => (s.newObject unit).1,
        ((s.newObject unit).2.perform (p.invoke (s.newObject unit).1 Framework.constructorName [provider])).2) := by
  obtain ⟨u, hu⟩ := Option.isSome_iff_exists.mp hunit
  unfold Program.instantiate
  simp only [hu, Option.isNone_some, Bool.false_eq_true, if_false, Store.perform_bind, Store.perform_pure,
    Store.perform_modifyGet]
  rcases (s.newObject unit).2.perform (p.invoke (s.newObject unit).1 Framework.constructorName [provider]) with
    ⟨e | v, s'⟩ <;> rfl

/-- **A demand that is not refused comes to what an invocation for it comes to**: the error is that of the invocation,
and the value is what the invocation gives, or the object that it is to construct. -/
theorem exists_invokes (hunit : ∀ unit, d.unit? = some unit → (p.unit? unit).isSome) :
    ∃ (i : Invocation) (s₁ : Store) (f : Value → Option Value), d.Invokes p s i s₁ ∧
      s.perform (d.meet p) = ((s₁.perform (i.act p)).1.map f, (s₁.perform (i.act p)).2) ∧
      ∀ v w, f v = some w → w = v ∨ w = i.receiver := by
  cases d with
  | instantiate unit provider =>
      refine ⟨_, _, fun _ => some (s.newObject unit).1, .constructed (hunit unit rfl), ?_, by simp⟩
      rw [meet, Store.perform_map, perform_instantiate provider (hunit unit rfl)]
      unfold Invocation.act
      rcases Store.perform _ (p.invoke _ _ _) with ⟨e | v, s'⟩ <;> rfl
  | install unit provider router =>
      have hmade := perform_instantiate (s := s) provider (hunit unit rfl)
      rw [meet, Store.perform_map, Program.install, Store.perform_bind]
      rcases hinstantiate : s.perform (p.instantiate unit provider) with ⟨e | registration, s₁⟩
      -- The constructor has failed.
      · rw [hinstantiate] at hmade
        refine ⟨_, _, fun _ => none, .prepared (.constructed (hunit unit rfl)), ?_, by simp⟩
        unfold Invocation.act
        rcases hinvoke : Store.perform _ (p.invoke _ _ _) with ⟨e' | v, s'⟩ <;> rw [hinvoke] at hmade <;> cases hmade
        rfl
      · rcases htarget : s₁.perform (handleTo Platform.router (.router router)) with ⟨e | target, s₂⟩
        · cases htarget
        refine ⟨_, _, fun _ => none, .installed hinstantiate htarget, ?_, by simp⟩
        unfold Invocation.act
        simp only [Store.perform_bind, htarget]
        rcases s₂.perform (p.invoke registration Framework.installName [target]) with ⟨e | v, s'⟩ <;> rfl
  | invoke receiver name args =>
      exact ⟨_, _, some, .invoked, Store.perform_map _ _, by simp⟩
  | dispatch handler exchange =>
      refine ⟨_, _, some, .dispatched rfl, ?_, by simp⟩
      rw [meet, Store.perform_map, Program.dispatch, Store.perform_bind]
      rfl

variable (hcomplete : p.Complete) (hhosts : p.HostsUseOnly p.Loaded) (hs : s.Only p.Loaded)
  (hd : ∀ v ∈ d.values, v.Only p.Loaded)

include hcomplete hhosts hs hd

/-- What is invoked for a demand is so with objects of loaded units, on a store with such objects only. -/
theorem Invokes.only {i : Invocation} {s₁ : Store} (h : d.Invokes p s i s₁) :
    s₁.Only p.Loaded ∧ i.receiver.Only p.Loaded ∧ ∀ v ∈ i.args, v.Only p.Loaded := by
  have hhandle {s s' : Store} {className : String} {object : HostObject} {v : Value}
      (hv : s.perform (handleTo className object) = (.ok v, s')) (hs : s.Only p.Loaded)
      (hobject : object.Only p.Loaded) : s'.Only p.Loaded ∧ v.Only p.Loaded := by
    obtain ⟨hs', -, hv⟩ := (Keeps.handleTo className hobject).of_ok hs hv
    exact ⟨hs', hv⟩
  induction h with
  | invoked => exact ⟨hs, List.forall_mem_cons.mp hd⟩
  | dispatched hcontext =>
      obtain ⟨hs', hcontext⟩ := hhandle hcontext hs trivial
      exact ⟨hs', hd _ List.mem_cons_self, by simpa using hcontext⟩
  | constructed hunit => exact ⟨hs.newObject _, Value.only_object.mpr hunit, hd⟩
  | prepared _ ih => exact ih hs hd
  | @installed unit provider registration target router s s₁ s' hmade htarget =>
      -- The object was made, so its unit is loaded.
      have hunit : (p.unit? unit).isSome := by
        rw [Option.isSome_iff_ne_none]
        intro hnone
        rw [perform_instantiate_of_none provider hnone] at hmade
        cases hmade
      have hprovider : provider.Only p.Loaded := hd _ List.mem_cons_self
      obtain ⟨hs₁, hregistration, -⟩ := Program.instantiate_confines hhosts hcomplete hunit hprovider s hs
      rw [hmade] at hs₁ hregistration
      obtain ⟨hs', htarget⟩ := hhandle htarget hs₁ trivial
      exact ⟨hs', hregistration _ rfl, by simpa using htarget⟩

end Demand

/-! ## Closed worlds -/

/-- What happens to a store: the host asks something of the program, or changes the store itself. -/
inductive Event where
  | demand (d : Demand)
  | change (f : Store → Store)

namespace Event

/-- The host uses only objects of a kind. -/
def UsesOnly (P : String → Nat → Prop) : Event → Prop
  | demand d => ∀ v ∈ d.values, v.Only P
  | change f => ∀ s : Store, s.Only P → (f s).Only P

/-- The store after it, also if a demand is not met. -/
def after (p : Program) (s : Store) : Event → Store
  | demand d => (s.perform (d.meet p)).2
  | change f => f s

end Event

namespace Program

/-- The store after events. -/
def history (p : Program) (s : Store) (events : List Event) : Store := events.foldl (Event.after p) s

section

variable {d : Demand} {s : Store} (hcomplete : p.Complete) (hhosts : p.HostsUseOnly p.Loaded) (hs : s.Only p.Loaded)

include hcomplete hhosts hs

/-- **What a demand comes to.** -/
theorem only_meet (hd : ∀ v ∈ d.values, v.Only p.Loaded) :
    (s.perform (d.meet p)).2.Only p.Loaded ∧
      (∀ v, (s.perform (d.meet p)).1 = .ok (some v) → v.Only p.Loaded) ∧
      ∀ name, (s.perform (d.meet p)).1 = .error (.unknownUnit name) →
        d.unit? = some name ∧ p.unit? name = none ∨ p.HostLacks name := by
  by_cases hrefused : ∃ unit, d.unit? = some unit ∧ p.unit? unit = none
  · obtain ⟨unit, hunit, hnone⟩ := hrefused
    rw [Demand.meet_of_none hunit hnone]
    refine ⟨hs, nofun, fun name hname => ?_⟩
    cases hname
    exact .inl ⟨hunit, hnone⟩
  · have hunit : ∀ unit, d.unit? = some unit → (p.unit? unit).isSome := fun unit hunit =>
      Option.isSome_iff_ne_none.mpr fun hnone => hrefused ⟨unit, hunit, hnone⟩
    obtain ⟨i, s₁, f, hinvokes, hmeet, hvalue⟩ := d.exists_invokes hunit
    obtain ⟨hs₁, hreceiver, hargs⟩ := hinvokes.only hcomplete hhosts hs hd
    have hact : p.Confines (i.act p) (·.Only p.Loaded) := invoke_confines hhosts hcomplete hreceiver hargs
    obtain ⟨hs', hgives, hlacks⟩ := hact s₁ hs₁
    rcases hrun : s₁.perform (i.act p) with ⟨e | v, s'⟩ <;> rw [hrun] at hs' hgives hlacks hmeet <;> rw [hmeet]
    · refine ⟨hs', nofun, fun name hname => .inr (hlacks name ?_)⟩
      cases hname
      rfl
    · refine ⟨hs', fun w hw => ?_, nofun⟩
      -- What is asked for is the receiver of its constructor, not what that returns.
      obtain rfl | rfl := hvalue v w (Except.ok.inj hw)
      · exact hgives w rfl
      · exact hreceiver

/-- Along a history that uses only what is loaded, the store holds only what is loaded. -/
theorem only_history {events : List Event} (hevents : ∀ e ∈ events, e.UsesOnly p.Loaded) :
    (p.history s events).Only p.Loaded := by
  induction events generalizing s with
  | nil => exact hs
  | cons e events ih =>
      obtain ⟨he, hevents⟩ := List.forall_mem_cons.mp hevents
      refine ih ?_ hevents
      cases e with
      | demand d => exact (only_meet hcomplete hhosts hs he).1
      | change f => exact he s hs

end

/-- A program creates objects of the units that it is asked for, unless it refuses, and of those that instructions of
its units name. -/
inductive Creates (p : Program) (unit : String) (number : Nat) : Prop
  | asked : (p.unit? unit).isSome → Creates p unit number
  | instructed {u : CodeUnit} {k : UInt16} :
      p.Has u (.onConst .newObject k) → u.pool.classAt k = .ok unit → Creates p unit number

/-- **Linked programs have the units of all objects that they create.** -/
theorem creates_eq_loaded (hlink : l.link = .ok { p with stubs := #[] }) : p.Creates = p.Loaded := by
  funext unit number
  refine propext ⟨?_, .asked⟩
  rintro (hasked | ⟨hhas, hname⟩)
  · exact hasked
  · exact Loader.made_of_link hlink hhas hname

/-- **Linking closes the world.** Take a program that has been linked, and any sequence of demands on it, whether they
are met or not, with changes of the store by the host between them. As long as the host, its code and the values that
come with demands use only objects that the program creates, a demand is for want of a unit exactly if it asks for one
by name that is not loaded, unless code of the application fails so by itself. All objects of units that are reached are
of loaded ones: from the store, with its fields, arrays, objects of the host, requests and routes; from the value that a
demand comes to; and from all that is passed on the way, from the stack and the locals of the method that runs and of
those that wait for it, in whatever values these are. -/
theorem link_closes_world (hlink : l.link = .ok { p with stubs := #[] }) (hhosts : p.HostsUseOnly p.Creates)
    {start : Store} (hstart : start.Only p.Creates) {events : List Event} (hevents : ∀ e ∈ events, e.UsesOnly p.Creates)
    {d : Demand} (hd : ∀ v ∈ d.values, v.Only p.Creates) :
    let s := p.history start events
    let met := s.perform (d.meet p)
    (∀ name, met.1 = .error (.unknownUnit name) → d.unit? = some name ∧ p.unit? name = none ∨ p.HostLacks name) ∧
      (∀ name, d.unit? = some name → p.unit? name = none → met = (.error (.unknownUnit name), s)) ∧
      (∀ i s₁ n x, d.Invokes p s i s₁ → p.Executes (s₁.perform (i.opening p)) n x →
        x.2.Only p.Loaded ∧ ∀ r, x.1 = .ok r → r.Only p.Loaded) ∧
      met.2.Only p.Loaded ∧ ∀ v, met.1 = .ok (some v) → v.Only p.Loaded := by
  intro s met
  -- The hypotheses speak of what the program creates, the invariant of what is loaded. Linking makes these one.
  have hcomplete : p.Complete := Loader.made_of_link hlink
  rw [creates_eq_loaded hlink] at hhosts hstart hevents hd
  have hs : s.Only p.Loaded := only_history hcomplete hhosts hstart hevents
  obtain ⟨hs', hgives, hlacks⟩ := only_meet hcomplete hhosts hs hd
  refine ⟨hlacks, fun name hname hnone => Demand.meet_of_none hname hnone, ?_, hs', hgives⟩
  intro i s₁ n x hinvokes hx
  obtain ⟨hs₁, hreceiver, hargs⟩ := hinvokes.only hcomplete hhosts hs hd
  obtain ⟨hopened, hopening, -⟩ := opening_confines hhosts hreceiver hargs s₁ hs₁
  obtain ⟨hx, hinside⟩ := hx.only hcomplete hhosts hopened hopening
  exact ⟨hx, fun r hr => (hinside r hr).only⟩

end Program

/-! ## A unit that makes objects of another one -/

def bookUnit : CodeUnit where
  name := "gen.Book"
  role := .handler
  interfaces := []
  pool := ⟨#[]⟩
  fields := []
  methods := [⟨"<init>", .void [], 0, 1, #[.bare .returnVoid]⟩]

/-- A method that makes a book and has the application look at it. -/
def order : Method where
  name := "order"
  signature := .returning [] (.object "gen.Book")
  maxStack := 2
  maxLocals := 1
  code := #[.onConst .newObject 0, .bare .dup, .onConst .invokeSpecial 1, .onConst .invokeStatic 2, .bare .returnValue]

def shelfUnit : CodeUnit where
  name := "gen.Shelf"
  role := .handler
  interfaces := []
  pool := ⟨#[.classRef "gen.Book", .method ⟨"gen.Book", "<init>", "()V"⟩,
    .method ⟨"app.Desk", "stamp", "(Lgen.Book;)Lgen.Book;"⟩]⟩
  fields := []
  methods := [⟨"<init>", .void [.object Platform.provider], 0, 2, #[.bare .returnVoid]⟩, order]

/-- The loader of both units and of the code that the method calls. -/
def shelfLoader : Loader where
  units := [shelfUnit, bookUnit]
  hierarchy := ∅
  statics := [(⟨"app.Desk", "stamp"⟩, .argument 0)]
  stepLimit := 10

def shelfProgram : Program where
  units := shelfLoader.units
  hierarchy := shelfLoader.hierarchy
  statics := shelfLoader.statics
  stepLimit := shelfLoader.stepLimit
  stubs := #[]

theorem link_closes_world_shelf :
    shelfLoader.link = .ok shelfProgram ∧
    let s := shelfProgram.history .empty [.demand (.instantiate "gen.Shelf" .null)]
    let ordered := s.perform ((Demand.invoke (.object "gen.Shelf" 0) "order" []).meet shelfProgram)
    s.objects.size = 1 ∧ ordered.1.isOk = true ∧ ordered.2.objects.size = 2 ∧ ordered.2.Only shelfProgram.Loaded ∧
      (∀ v, ordered.1 = .ok (some v) → v.Only shelfProgram.Loaded) ∧
      s.perform ((Demand.instantiate "gen.Desk" .null).meet shelfProgram) = (.error (.unknownUnit "gen.Desk"), s) := by
  have hlink : shelfLoader.link = .ok shelfProgram := by
    refine Loader.link_eq_ok.mpr ⟨?_, rfl⟩
    decide +kernel
  have hhosts : shelfProgram.HostsUseOnly shelfProgram.Creates := by
    rintro code (⟨stub, hstub, -⟩ | ⟨name, hname⟩)
    · simp [shelfProgram] at hstub
    · obtain ⟨-, rfl⟩ : name = ⟨"app.Desk", "stamp"⟩ ∧ code = .argument 0 := by
        simpa [shelfProgram, shelfLoader] using hname
      exact HostCode.usesOnly_argument 0
  have hempty : Store.empty.Only shelfProgram.Creates := by constructor <;> simp [Store.empty]
  have hevents : ∀ e ∈ [Event.demand (.instantiate "gen.Shelf" .null)], e.UsesOnly shelfProgram.Creates := by
    simpa [Event.UsesOnly, Demand.values] using .of_leaf rfl
  have hshelf : ∀ v ∈ (Demand.invoke (.object "gen.Shelf" 0) "order" []).values, v.Only shelfProgram.Creates := by
    simpa [Demand.values] using .asked (by decide)
  have hdesk : ∀ v ∈ (Demand.instantiate "gen.Desk" .null).values, v.Only shelfProgram.Creates := by
    simpa [Demand.values] using .of_leaf rfl
  obtain ⟨-, -, -, honly, hordered⟩ := Program.link_closes_world hlink hhosts hempty hevents hshelf
  obtain ⟨-, hrefused, -, -, -⟩ := Program.link_closes_world hlink hhosts hempty hevents hdesk
  exact ⟨hlink, by decide +kernel, by decide +kernel, by decide +kernel, honly, hordered, hrefused _ rfl (by decide)⟩

end Routecraft.Machine
