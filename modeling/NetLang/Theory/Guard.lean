import NetLang.Library.Budget
import NetLang.Theory.Triples
import NetLang.Theory.Known
import NetLang.Theory.Jumps

/-!
# Guarded computations

The invariant of the interpreter that rules out panics and stray jumps,
together with the account of the step budget and of the model's fuel, and the
rules for the combinators of the interpreter monad.
-/

namespace NetLang

open Interp

variable {α β : Type}

/-- A value has the type of an annotation, if there is one. -/
def TypeRegistry.Fits (types : TypeRegistry)
    (annotated : Option ResolvedType) (value : Value) : Prop :=
  ∀ ty, annotated = some ty → types.admits ty value = true

theorem TypeRegistry.fits_none (types : TypeRegistry) (value : Value) :
    types.Fits none value := nofun

/-- An annotation, if there is one, is of a type that has a definition. -/
def TypeRegistry.Annotates (types : TypeRegistry)
    (annotated : Option ResolvedType) : Prop :=
  ∀ ty, annotated = some ty → types.Defines ty

theorem TypeRegistry.annotates_none (types : TypeRegistry) :
    types.Annotates none := nofun

theorem TypeRegistry.annotates_bind (types : TypeRegistry) {α : Type}
    (annotated : Option α) (name : α → String) :
    types.Annotates (annotated.bind fun written =>
      types.resolve (name written)) := by
  intro ty found
  obtain ⟨_, _, resolved⟩ := Option.bind_eq_some_iff.mp found
  exact defines_of_resolve resolved

/-- The fields that a constructor gives to a record. -/
structure TypeRegistry.Builds (types : TypeRegistry) (id : Nat)
    (fields : List (String × Expr)) (values : SortedMap Value) : Prop where
  entries : ∀ entry ∈ values, (∃ field ∈ fields, field.1 = entry.1) ∧
    ∀ declared, types.field? id entry.1 = some declared →
      ∀ ty, types.resolve declared.annotated.name = some ty →
        types.admits ty entry.2 = true
  complete : ∀ field ∈ fields, (SortedMap.get? values field.1).isSome

theorem TypeRegistry.Builds.insert {types : TypeRegistry} {id : Nat}
    {done : List (String × Expr)} {values : SortedMap Value} {key : String}
    {expression : Expr} {value : Value} (built : types.Builds id done values)
    (fits : types.Fits ((types.field? id key).bind fun field =>
      types.resolve field.annotated.name) value) :
    types.Builds id (done ++ [(key, expression)])
      (SortedMap.insert values key value) where
  entries := by
    intro entry member
    rcases SortedMap.mem_insert member with rfl | earlier
    · refine ⟨⟨(key, expression), by simp, rfl⟩, ?_⟩
      intro declared found ty resolved
      exact fits ty (by simp [found, resolved])
    · obtain ⟨⟨field, inside, same⟩, admitted⟩ := built.entries entry earlier
      exact ⟨⟨field, List.mem_append_left _ inside, same⟩, admitted⟩
  complete := by
    intro field member
    rw [SortedMap.get?_insert]
    split
    · rfl
    · next different =>
        rcases List.mem_append.mp member with earlier | here
        · exact built.complete field earlier
        · rw [List.mem_singleton] at here
          exact absurd (congrArg Prod.fst here) different

/-- What is fixed in a run: the types, the constructors and the records that
may be met, whether threads may be started, whether they may panic, whether
the fuel may run out, and whether uninitialized bindings are not assigned. -/
structure Guard where
  types : TypeRegistry
  constructs : String → List (String × Expr) → Prop
  records : Records
  batches : Prop
  crashes : Prop
  short : Prop
  careful : Prop
  identity : records.identity = types.identity
  declared : ∀ name fields id values, constructs name fields →
    types.resolve name = some (.named id) → types.Builds id fields values →
    records.known id values
  updates : Value.Updates records types
  foreign : (¬ ∀ id fields, records.known id fields →
    id < types.definitions.length) → crashes

/-- The slots that a computation may initialize, if it succeeds and if it
fails. -/
structure Fills where
  ok : List Nat
  error : List Nat

def Fills.none : Fills :=
  ⟨[], []⟩

def Fills.after (fills : Fills) : Result α → List Nat
  | .ok _ => fills.ok
  | .error _ => fills.error

/-- All slots of an environment are below a bound, and it has a scope. -/
structure Environment.Inside (env : Environment) (size : Nat) : Prop where
  nonempty : env ≠ []
  slots : ∀ scope ∈ env, ∀ entry ∈ scope, entry.2 < size

/-- A function captures slots of its arena, and only returns. -/
structure Function.Closed (function : Function) (size : Nat) : Prop where
  closure : ∀ scope ∈ function.closure, ∀ entry ∈ scope, entry.2 < size
  tame : function.body.Tame
  jumps : ∀ jump ∈ function.body.jumps, jump = .return
  point : function.point ≠ []

/-- The value of a binding is known and has the type of its annotation. -/
structure Binding.Holds (types : TypeRegistry) (records : Records)
    (binding : Binding) (value : Value) : Prop where
  known : value.Known records
  fits : types.Fits binding.annotated value

/-- A binding that waits for the initializer of its `let`. -/
def Uninitialized (state : Interpreter) (id : Nat) : Prop :=
  ∃ binding, state.bindings[id]? = some binding ∧ binding.value = none

/-- Bindings are only added; uninitialized ones stay so, except for the given
ones, if assignments are careful.  The type to return stays as it is. -/
structure Grown (careful : Prop) (except : List Nat)
    (before after : Interpreter) : Prop where
  longer : before.bindings.length ≤ after.bindings.length
  returnType : after.returnType = before.returnType
  kept : careful → ∀ id, id ∉ except → Uninitialized before id →
    Uninitialized after id

/-- The successful execution of a `let` leaves its slot with a value. -/
structure Initializes (careful : Prop) (node : Stmt) (before : Interpreter)
    (result : Result (Flow × Environment)) (after : Interpreter)
    (slot : Nat) : Prop where
  waiting : Uninitialized before slot
  others : Grown careful [slot] before after
  ok : ∀ outcome, result = .ok outcome → ∀ name annotated value,
    node = .let name annotated value →
      outcome.2.resolve name = some slot ∧ ∃ binding stored,
        after.bindings[slot]? = some binding ∧ binding.value = some stored
  error : ∀ reason, result = .error reason → Uninitialized after slot

/-- The annotations of an interpreter are of types that have definitions. -/
structure TypeRegistry.Declares (types : TypeRegistry)
    (bindings : List Binding) (functions : List Function)
    (returnType : Option ResolvedType) : Prop where
  bindings : ∀ binding ∈ bindings, types.Annotates binding.annotated
  functions : ∀ function ∈ functions, types.Annotates function.returnType
  returnType : types.Annotates returnType

namespace Guard

variable (guard : Guard)

structure Inv (state : Interpreter) : Prop where
  types : state.types = guard.types
  values : ∀ binding ∈ state.bindings, ∀ value, binding.value = some value →
    binding.Holds guard.types guard.records value
  functions : ∀ function ∈ state.functions,
    function.Closed state.bindings.length
  batches : state.inParallelWorker = false → guard.batches
  declares : guard.types.Declares state.bindings state.functions
    state.returnType

/-- Enough fuel to run with the given number of steps left. -/
def Fueled (left clock : Nat) : Prop :=
  guard.short ∨ 2 * left < clock

/-- A panic is the doing of a host that invents the type of a record. -/
def Stops : Stop → Prop
  | .error error => error.kind.Ordinary guard.crashes
  | .panic => ¬ ∀ id fields, guard.records.known id fields →
      id < guard.types.definitions.length
  | .outOfFuel => guard.short

/-- A result that is a value, or a reason to stop that is allowed. -/
def Settled (result : Result α) : Prop :=
  ∀ reason, result = .error reason → guard.Stops reason

/-- Uninitialized bindings stay so, except for the given ones. -/
abbrev Grows (except : List Nat) (before after : Interpreter) : Prop :=
  Grown guard.careful except before after

/-- A worker that may begin when the given number of steps is left. -/
structure Begins (left : Nat) (worker : Worker) : Prop where
  inv : guard.Inv worker.start
  env : worker.snapshot.env.Inside worker.snapshot.bindings.length
  value : worker.value.Known guard.records
  tame : worker.body.Tame
  jumps : ∀ jump ∈ worker.body.jumps, jump = .continue
  fueled : guard.Fueled left worker.clock

/-- A worker starts no threads. -/
abbrev Starts (left : Nat) (worker : Worker) : Prop :=
  Begins { guard with batches := False } left worker

def Ends : WorkerEnd → Prop
  | .finished outcome => ∀ error, outcome.result = .error error →
      error.kind.Ordinary guard.crashes
  | .panicked => guard.crashes
  | .outOfFuel => guard.short

end Guard

/-- A binding admits a value: it has no annotation, or one that the value
fits. -/
def Interpreter.Admits (state : Interpreter) (id : Nat) (value : Value) :
    Prop :=
  ∃ binding, state.bindings[id]? = some binding ∧
    state.types.checkValueType binding.annotated value = .ok ()

/-- A direct assignment that is about to store a value which its binding
admits finds the binding initialized. -/
def Observation.Careful : Observation → Prop
  | .storing _ id selectors value state =>
      selectors = [] → state.Admits id value → ¬ Uninitialized state id
  | _ => True

/-- The constructors that are evaluated are among the given ones. -/
def Observation.Constructs (allowed : String → List (String × Expr) → Prop) :
    Observation → Prop
  | .evaluating _ (.construct name fields) _ _ => allowed name fields
  | _ => True

/-- The values that a state of the run stores are known, and of the types of
their bindings. -/
def Guard.Stores (guard : Guard) (state : Interpreter) : Prop :=
  state.types = guard.types ∧ ∀ binding ∈ state.bindings, ∀ value,
    binding.value = some value →
      binding.Holds guard.types guard.records value

theorem Guard.Inv.stores {guard : Guard} {state : Interpreter}
    (inv : guard.Inv state) : guard.Stores state :=
  ⟨inv.types, inv.values⟩

/-- What holds of the states and the values that are shown. -/
def Observation.Sound (guard : Guard) : Observation → Prop
  | .evaluating _ _ _ state | .executing _ _ _ state
  | .entering _ _ state => guard.Stores state
  | .storing _ _ _ value state =>
      guard.Stores state ∧ value.Known guard.records
  | .evaluated _ _ _ before result after
  | .assigned _ _ _ _ _ before result after =>
      guard.Stores before ∧ guard.Stores after ∧
        ∀ value, result = .ok value → value.Known guard.records
  | .returned function before result after =>
      guard.Stores before ∧ guard.Stores after ∧
        ∀ value, result = .ok value → value.Known guard.records ∧
          guard.types.Fits function.returnType value
  | .executed _ _ _ before result after =>
      guard.Stores before ∧ guard.Stores after ∧
        ∀ value env, result = .ok (.return value, env) →
          value.Known guard.records
  | .joined _ before _ after => guard.Stores before ∧ guard.Stores after

/-- What holds of the end of everything that is executed. -/
def Observation.Guarded (guard : Guard) : Observation → Prop
  | .evaluating _ _ _ _ | .executing _ _ _ _ | .storing _ _ _ _ _
  | .entering _ _ _ => True
  | .evaluated _ node env before result after =>
      guard.Settled result ∧ guard.Grows [] before after ∧
        ∀ name id, node = .identifier name → env.resolve name = some id →
          Uninitialized before id → ∀ value, result ≠ .ok value
  | .executed point node _ before result after =>
      guard.Settled result ∧
        (∀ outcome, result = .ok outcome → outcome.1.Among node.jumps ∧
          (point.length = 1 → outcome.1 = .normal)) ∧
        (guard.careful → (∀ name annotated value,
            node = .let name annotated value →
          ∃ slot, Initializes guard.careful node before result after slot) ∧
        ((∀ name annotated value, node ≠ .let name annotated value) →
          guard.Grows [] before after))
  | .returned _ before result after =>
      guard.Settled result ∧ guard.Grows [] before after
  | .assigned _ _ _ id _ before result after =>
      guard.Settled result ∧ guard.Grows [] before after ∧ (guard.careful →
        Uninitialized before id → ∀ value, result ≠ .ok value)
  | .joined _ before result after =>
      guard.Settled result ∧ guard.Grows [] before after

namespace Guard

variable (guard : Guard)

def ledger : Ledger effects where
  call := fun call => ∀ value ∈ call.2.arguments, value.Known guard.records
  reply := fun call reply => ∀ value ∈ call.2.answered reply,
    value.Known guard.records
  batches := guard.batches
  job := guard.Starts
  done := fun _ done => guard.Ends done
  note := fun note => note.Guarded guard ∧ note.Sound guard
  assume := fun note => (guard.careful → note.Careful) ∧
    note.Constructs guard.constructs

/-- What holds after a computation. -/
structure After (fills : Fills) (before : Interpreter)
    (post : α → Interpreter → Nat → Prop) (result : Result α)
    (after : Interpreter) (left : Nat) : Prop where
  grows : guard.Grows (fills.after result) before after
  inv : guard.Inv after
  ok : ∀ value, result = .ok value → post value after left
  error : guard.Settled result

/-- A computation keeps the invariant when no more than the given number of
steps is left. -/
def Runs (fills : Fills) (comp : Interp α)
    (post : α → Interpreter → Nat → Prop) (state : Interpreter)
    (left : Nat) : Prop :=
  guard.Inv state →
    (comp state).Within guard.ledger (fun outcome left' =>
      guard.After fills state post outcome.1 outcome.2 left') left

variable {guard} {except : List Nat} {fills : Fills}
  {state : Interpreter} {left : Nat}
  {post : α → Interpreter → Nat → Prop}

theorem Grows.refl (state : Interpreter) : guard.Grows except state state :=
  ⟨le_rfl, rfl, fun _ _ _ empty => empty⟩

theorem Grows.trans {first second third : Interpreter}
    (before : guard.Grows except first second)
    (after : guard.Grows except second third) :
    guard.Grows except first third :=
  ⟨before.longer.trans after.longer, after.returnType.trans before.returnType,
    fun careful id other empty =>
      after.kept careful id other (before.kept careful id other empty)⟩

theorem Grows.mono {more : List Nat} {before after : Interpreter}
    (grows : guard.Grows except before after) (subset : except ⊆ more) :
    guard.Grows more before after :=
  ⟨grows.longer, grows.returnType, fun careful id other =>
    grows.kept careful id fun member => other (subset member)⟩

/-- Only the bindings and the type to return matter. -/
theorem Grows.same {before after : Interpreter}
    (bindings : after.bindings = before.bindings)
    (returnType : after.returnType = before.returnType) :
    guard.Grows except before after := by
  refine ⟨le_of_eq (congrArg List.length bindings.symm), returnType,
    fun _ id _ empty => ?_⟩
  unfold Uninitialized
  rw [bindings]
  exact empty

theorem Fueled.mono {less clock : Nat} (fueled : guard.Fueled left clock)
    (fewer : less ≤ left) : guard.Fueled less clock :=
  fueled.imp_right fun enough => by omega

theorem Settled.ok (value : α) : guard.Settled (.ok value) := nofun

theorem Runs.mono {weaker : α → Interpreter → Nat → Prop} {comp : Interp α}
    (runs : guard.Runs fills comp post state left)
    (implies : ∀ value after left', left' ≤ left →
      guard.Grows fills.ok state after → guard.Inv after →
      post value after left' → weaker value after left') :
    guard.Runs fills comp weaker state left := by
  intro inv
  refine (runs inv).mono ?_
  rintro ⟨result, after⟩ left' less held
  refine ⟨held.grows, held.inv, ?_, held.error⟩
  rintro value rfl
  exact implies value after left' less held.grows held.inv
    (held.ok value rfl)

theorem Runs.assume {comp : Interp α}
    (runs : guard.Inv state → guard.Runs fills comp post state left) :
    guard.Runs fills comp post state left :=
  fun inv => runs inv inv

/-- A change of the state that keeps the invariant. -/
theorem runs_ret {value : α} {next : Interpreter} {comp : Interp α}
    (same : comp state = .ret (.ok value, next))
    (grows : guard.Grows fills.ok state next)
    (inv : guard.Inv state → guard.Inv next)
    (holds : guard.Inv state → ∀ left' ≤ left, post value next left') :
    guard.Runs fills comp post state left := by
  intro held
  rw [same]
  intro left' less
  refine ⟨grows, inv held, ?_, nofun⟩
  rintro _ ⟨⟩
  exact holds held left' less

theorem runs_pure {value : α}
    (holds : ∀ left' ≤ left, post value state left') :
    guard.Runs fills (pure value) post state left :=
  runs_ret rfl (.refl state) id fun _ => holds

theorem runs_stop {reason : Stop} (stops : guard.Stops reason) :
    guard.Runs fills (stop reason) post state left := by
  intro inv left' less
  refine ⟨.refl state, inv, nofun, ?_⟩
  rintro _ ⟨⟩
  exact stops

theorem runs_fail {point : Point} {kind : ErrorKind}
    (ordinary : kind.Ordinary guard.crashes) :
    guard.Runs fills (fail point kind) post state left := by
  have stops : guard.Stops (.error (failure point kind state)) := ordinary
  exact runs_stop stops

theorem runs_lift {point : Point} {result : Except ErrorKind α}
    (ok : ∀ value, result = .ok value →
      ∀ left' ≤ left, post value state left')
    (error : ∀ kind, result = .error kind → kind.Ordinary guard.crashes) :
    guard.Runs fills (lift point result) post state left := by
  cases result with
  | ok value => exact runs_pure (ok value rfl)
  | error kind => exact runs_fail (error kind rfl)

/-- The second computation runs if the first one succeeds. -/
theorem Runs.bindWith {first : Fills} {comp : Interp α}
    {f : α → Interp β} {after : β → Interpreter → Nat → Prop}
    (runs : guard.Runs first comp post state left) (second : Fills)
    (rest : ∀ value next left', left' ≤ left →
      guard.Grows first.ok state next → guard.Inv next →
      post value next left' → guard.Runs second (f value) after next left')
    (ok : first.ok ++ second.ok ⊆ fills.ok)
    (error : first.error ++ first.ok ++ second.error ⊆ fills.error) :
    guard.Runs fills (comp >>= f) after state left := by
  intro inv
  refine Comp.within_bind ((runs inv).mono ?_)
  rintro ⟨result, next⟩ left' less held
  simp only [List.append_subset] at ok error
  cases result with
  | ok value =>
      refine (rest value next left' less held.grows held.inv
        (held.ok value rfl) held.inv).mono ?_
      rintro ⟨result, last⟩ left'' _ done
      refine ⟨?_, done.inv, done.ok, done.error⟩
      cases result with
      | ok value =>
          exact (held.grows.mono ok.1).trans (done.grows.mono ok.2)
      | error reason =>
          exact (held.grows.mono error.1.2).trans
            (done.grows.mono error.2)
  | error reason =>
      refine fun left'' _ =>
        ⟨held.grows.mono error.1.1, held.inv, nofun, ?_⟩
      rintro _ ⟨⟩
      exact held.error reason rfl

theorem Runs.bind {comp : Interp α} {f : α → Interp β}
    {after : β → Interpreter → Nat → Prop}
    (first : guard.Runs .none comp post state left)
    (rest : ∀ value next left', left' ≤ left →
      guard.Grows [] state next → guard.Inv next →
      post value next left' → guard.Runs fills (f value) after next left') :
    guard.Runs fills (comp >>= f) after state left :=
  first.bindWith _ rest (List.Subset.refl _) (List.Subset.refl _)

theorem Runs.bindPure {comp : Interp α} {f : α → β}
    {after : β → Interpreter → Nat → Prop}
    (runs : guard.Runs fills comp post state left)
    (holds : ∀ value next left', post value next left' →
      after (f value) next left') :
    guard.Runs fills (comp >>= fun value => pure (f value)) after state
      left := by
  intro inv
  refine Comp.within_bind ((runs inv).down.mono ?_)
  rintro ⟨result, next⟩ left' less held
  cases result with
  | ok value =>
      intro left'' fewer
      have done := held left'' fewer
      refine ⟨done.grows, done.inv, ?_, nofun⟩
      rintro _ ⟨⟩
      exact holds value next left'' (done.ok value rfl)
  | error reason =>
      intro left'' fewer
      have done := held left'' fewer
      refine ⟨done.grows, done.inv, nofun, ?_⟩
      rintro _ ⟨⟩
      exact done.error reason rfl

theorem runs_get {after : β → Interpreter → Nat → Prop}
    {f : Interpreter → Interp β}
    (rest : guard.Inv state → guard.Runs fills (f state) after state left) :
    guard.Runs fills (get >>= f) after state left :=
  fun inv => rest inv inv

theorem runs_tick {point : Point} {post : Unit → Interpreter → Nat → Prop}
    (holds : ∀ left' < left, post () (attempted state) left') :
    guard.Runs fills (tick point) post state left := by
  intro inv
  have grows : ∀ except, guard.Grows except state (attempted state) :=
    fun _ => .same rfl rfl
  have kept : guard.Inv (attempted state) :=
    ⟨inv.types, inv.values, inv.functions, inv.batches, inv.declares⟩
  refine ⟨fun left' _ => ⟨grows _, kept, nofun, ?_⟩,
    fun left' less left'' fewer => ⟨grows _, kept, ?_, nofun⟩⟩
  · rintro _ ⟨⟩
    trivial
  · rintro _ ⟨⟩
    exact holds left'' (by omega)

theorem runs_call {point : Point} {operation : HostCall}
    {post : operation.Answer → Interpreter → Nat → Prop}
    (offered : ∀ value ∈ operation.arguments, value.Known guard.records)
    (holds : ∀ answer, (∀ value ∈ operation.answered (.ok answer),
      value.Known guard.records) → ∀ left' ≤ left, post answer state left') :
    guard.Runs fills (call point operation) post state left := by
  intro inv
  refine ⟨offered, fun reply accepted => ?_⟩
  cases reply with
  | ok answer =>
      refine fun left' less => ⟨.refl state, inv, ?_, nofun⟩
      rintro _ ⟨⟩
      exact holds answer accepted left' less
  | error message =>
      refine fun left' less => ⟨.refl state, inv, nofun, ?_⟩
      rintro _ ⟨⟩
      trivial

/-- A computation that is followed by a change of its outcome. -/
theorem Runs.map {comp : Interp α} {start : Interpreter}
    {inner : α → Interpreter → Nat → Prop}
    {f : Result α × Interpreter → Comp effects (Result β × Interpreter)}
    {g : Result α × Interpreter → Result β × Interpreter}
    {post : β → Interpreter → Nat → Prop}
    (runs : guard.Runs fills comp inner start left)
    (entered : guard.Inv start)
    (same : ∀ outcome, f outcome = .ret (g outcome))
    (holds : ∀ result after left', left' ≤ left →
      guard.After fills start inner result after left' →
      guard.After fills state post (g (result, after)).1
        (g (result, after)).2 left') :
    ((comp start).bind f).Within guard.ledger (fun outcome left' =>
      guard.After fills state post outcome.1 outcome.2 left') left := by
  refine Comp.within_bind ((runs entered).down.mono ?_)
  rintro ⟨result, after⟩ left' less done
  rw [same]
  exact fun left'' fewer =>
    holds result after left'' (fewer.trans less) (done left'' fewer)

/-- Run in a changed state, and change it back. -/
theorem runs_around {comp : Interp α} {enter : Interpreter → Interpreter}
    {leave : Interpreter → Interpreter → Interpreter}
    {inner : α → Interpreter → Nat → Prop}
    (entered : guard.Inv state → guard.Inv (enter state))
    (bindings : (enter state).bindings = state.bindings)
    (runs : guard.Runs fills comp inner (enter state) left)
    (inv : ∀ after, guard.Inv after → guard.Inv (leave state after))
    (restored : ∀ after, (leave state after).bindings = after.bindings)
    (returned : ∀ after, after.returnType = (enter state).returnType →
      (leave state after).returnType = state.returnType)
    (holds : ∀ value after left',
      after.returnType = (enter state).returnType →
      inner value after left' → post value (leave state after) left') :
    guard.Runs fills (around enter leave comp) post state left := by
  intro held
  refine runs.map (entered held) (fun _ => rfl) ?_
  intro result after left' _ done
  have grows : guard.Grows (fills.after result) state (leave state after) := by
    refine ⟨?_, returned after done.grows.returnType,
      fun careful id other empty => ?_⟩
    · rw [restored, ← bindings]
      exact done.grows.longer
    · have before : Uninitialized (enter state) id := by
        unfold Uninitialized
        rw [bindings]
        exact empty
      have later := done.grows.kept careful id other before
      unfold Uninitialized at later ⊢
      rw [restored]
      exact later
  exact ⟨grows, inv after done.inv, fun value same =>
    holds value after left' done.grows.returnType (done.ok value same),
    done.error⟩

theorem Runs.withSpan {span : Option Span} {comp : Interp α}
    {inner : α → Interpreter → Nat → Prop}
    (runs : guard.Runs fills comp inner
      { state with currentSpan := span.or state.currentSpan } left)
    (holds : ∀ value after left', inner value after left' →
      post value { after with currentSpan := state.currentSpan } left') :
    guard.Runs fills (withSpan span comp) post state left :=
  runs_around
    (fun inv => ⟨inv.types, inv.values, inv.functions, inv.batches,
      inv.declares⟩)
    rfl runs
    (fun _ inv => ⟨inv.types, inv.values, inv.functions, inv.batches,
      inv.declares⟩)
    (fun _ => rfl) (fun _ same => same)
    fun value after left' _ => holds value after left'

theorem Runs.relocate {comp : Interp α}
    {locate : Option Span → Option Span}
    (runs : guard.Runs fills comp post state left) :
    guard.Runs fills (relocate locate comp) post state left := by
  intro inv
  refine Comp.within_bind ((runs inv).down.mono ?_)
  intro outcome left' less done
  obtain ⟨result, after⟩ := outcome
  cases result with
  | ok value => exact done
  | error reason =>
      cases reason with
      | error error =>
          intro left'' fewer
          have held := done left'' fewer
          refine ⟨held.grows, held.inv, ?_, ?_⟩
          · intro value same
            cases same
          · intro reason same
            cases same
            have stops := held.error _ rfl
            exact stops
      | panic => exact done
      | outOfFuel => exact done

theorem runs_nested {point : Point} {comp : Interp α}
    {inner : α → Interpreter → Nat → Prop}
    (runs : guard.Runs fills comp inner
      { state with expressionDepth := state.expressionDepth + 1 } left)
    (holds : ∀ value after left', inner value after left' →
      post value { after with
        expressionDepth := after.expressionDepth - 1 } left') :
    guard.Runs fills (nested point comp) post state left := by
  by_cases deep : state.limits.expressionDepth ≤ state.expressionDepth
  · intro inv
    have failed : guard.Runs fills (fail point .expressionDepth) post state
        left := runs_fail trivial
    simpa [nested, deep] using failed inv
  · intro inv
    have around : guard.Runs fills (Interp.around
        (fun state => { state with
          expressionDepth := state.expressionDepth + 1 })
        (fun _ after => { after with
          expressionDepth := after.expressionDepth - 1 }) comp)
        post state left :=
      runs_around
        (fun inv => ⟨inv.types, inv.values, inv.functions, inv.batches,
          inv.declares⟩)
        rfl runs
        (fun _ inv => ⟨inv.types, inv.values, inv.functions, inv.batches,
          inv.declares⟩)
        (fun _ => rfl) (fun _ same => same)
        fun value after left' _ => holds value after left'
    simpa [nested, deep] using around inv

/-- What was led to is shown. -/
theorem runs_reported {comp : Interp α}
    {shown : Interpreter → Result α → Interpreter → Observation}
    (runs : guard.Runs fills comp post state left)
    (note : ∀ result after left', guard.Inv state →
      guard.After fills state post result after left' →
      (shown state result after).Guarded guard)
    (sound : ∀ result after left', guard.Inv state →
      guard.After fills state post result after left' →
      (shown state result after).Sound guard) :
    guard.Runs fills (reported shown comp) post state left := by
  intro inv
  refine Comp.within_bind ((runs inv).down.mono ?_)
  rintro ⟨result, after⟩ left' less done
  exact ⟨⟨note result after left' inv (done left' le_rfl),
    sound result after left' inv (done left' le_rfl)⟩,
    fun _ left'' fewer => done left'' fewer⟩

/-- The state is shown, and what that assumes may be used. -/
theorem runs_observe {note : Interpreter → Observation} {f : Unit → Interp β}
    {after : β → Interpreter → Nat → Prop}
    (guarded : (note state).Guarded guard)
    (sound : guard.Inv state → (note state).Sound guard)
    (rest : (guard.careful → (note state).Careful) →
      guard.Runs fills (f ()) after state left) :
    guard.Runs fills (observe note >>= f) after state left :=
  fun inv => ⟨⟨guarded, sound inv⟩, fun assumed => rest assumed.1 inv⟩

theorem runs_observed {comp : Interp α}
    {before : Interpreter → Observation}
    {shown : Interpreter → Result α → Interpreter → Observation}
    (starts : (before state).Guarded guard)
    (opens : guard.Inv state → (before state).Sound guard)
    (runs : (before state).Constructs guard.constructs →
      guard.Runs fills comp post state left)
    (note : ∀ result after left', guard.Inv state →
      guard.After fills state post result after left' →
      (shown state result after).Guarded guard)
    (sound : ∀ result after left', guard.Inv state →
      guard.After fills state post result after left' →
      (shown state result after).Sound guard) :
    guard.Runs fills (observed before shown comp) post state left := by
  have reports : (before state).Constructs guard.constructs →
      guard.Runs fills (reported shown comp) post state left :=
    fun assumed => runs_reported (runs assumed) note sound
  exact fun inv => ⟨⟨starts, opens inv⟩,
    fun assumed => reports assumed.2 inv⟩

theorem Runs.ite {condition : Prop} [Decidable condition]
    {comp other : Interp α}
    (first : condition → guard.Runs fills comp post state left)
    (second : ¬ condition → guard.Runs fills other post state left) :
    guard.Runs fills (if condition then comp else other) post state left := by
  split
  · next holds => exact first holds
  · next fails => exact second fails

end Guard

end NetLang
