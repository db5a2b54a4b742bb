import NetLang.Theory.Plain
import NetLang.Theory.Guard

/-!
# Guarded operations

The errors of the pure operations, and the rules for the operations on the
state of an interpreter.
-/

namespace NetLang

open Interp

section Errors

/-- A pure operation whose errors a program accepted by the analyzer may
raise. -/
def Operational {α : Type} (result : Except ErrorKind α) : Prop :=
  ∀ kind, result = .error kind → ∀ crashes, kind.Ordinary crashes

theorem ErrorKind.Plain.ordinary {kind : ErrorKind} (plain : kind.Plain)
    (crashes : Prop) : kind.Ordinary crashes := by
  cases kind with
  | loopControlInFunction | breakIteration | returnIteration => cases plain
  | iterationPanicked index => cases plain
  | iteration index kind => cases plain
  | _ => trivial

theorem Plainly.operational {α : Type} {result : Except ErrorKind α}
    (plain : Plainly result) : Operational result :=
  fun kind failed => (plain kind failed).ordinary

/-- An operation that does not panic, and raises such errors only. -/
structure Settles {α : Type} (result : Except Fault α) : Prop where
  defined : result ≠ .error .panic
  ordinary : ∀ kind, result = .error (.kind kind) →
    ∀ crashes, kind.Ordinary crashes

theorem FailsPlainly.settles {α : Type} {result : Except Fault α}
    (plain : FailsPlainly result) (defined : result ≠ .error .panic) :
    Settles result :=
  ⟨defined, fun kind failed => (plain kind failed).ordinary⟩

theorem ofKind_defined {α : Type} (result : Except ErrorKind α) :
    Fault.ofKind result ≠ .error .panic := by
  cases result <;> nofun

/-- An operator that compares never meets the arm of the others. -/
theorem orderBinary_defined (left : Value) {op : BinaryOp} (right : Value)
    (order : op.isOrder = true) :
    orderBinary left op right ≠ .error .panic := by
  unfold orderBinary
  split
  · nofun
  · cases op with
    | less | lessEqual | greater | greaterEqual => nofun
    | _ => cases order

theorem binary_defined [Formatting] (left : Value) (op : BinaryOp)
    (right : Value) : binary left op right ≠ .error .panic := by
  unfold binary
  split
  · nofun
  split
  · nofun
  split
  · next order => exact orderBinary_defined left right order
  split
  · split <;> nofun
  split
  · split <;> nofun
  · exact ofKind_defined _
  · exact ofKind_defined _
  · exact ofKind_defined _
  · exact ofKind_defined _
  · exact ofKind_defined _
  · nofun

theorem binary_settles [Formatting] (left : Value) (op : BinaryOp)
    (right : Value) : Settles (binary left op right) :=
  (binary_plain left op right).settles (binary_defined left op right)

theorem unary_operational (operator : UnaryOp) (operand : Value) :
    Operational (unary operator operand) :=
  (unary_plain operator operand).operational

theorem asBoolean_operational (value : Value) :
    Operational value.asBoolean :=
  (asBoolean_plain value).operational

theorem get_operational (object : Value) (selector : Selector) :
    Operational (object.get selector) :=
  (get_plain object selector).operational

theorem index_operational (object subscript : Value) :
    Operational (index object subscript) :=
  (index_plain object subscript).operational

theorem checkValueType_settles {types : TypeRegistry}
    {expected : Option ResolvedType} (annotates : types.Annotates expected)
    (value : Value) : Settles (types.checkValueType expected value) :=
  (checkValueType_plain types expected value).settles
    (TypeRegistry.checkValueType_defined annotates)

theorem configuredAddress_operational (transport : Transport)
    (fields : SortedMap Value) :
    Operational (configuredAddress transport fields) :=
  (configuredAddress_plain transport fields).operational

theorem pureBuiltin_operational (builtin : Builtin) (value : Value) :
    Operational (pureBuiltin builtin value) :=
  (pureBuiltin_plain builtin value).operational

/-- The kinds of the errors of an update. -/
theorem set_operational {types : TypeRegistry} {selectors : List Selector}
    {root value : Value} {kind : ErrorKind}
    (failed : root.set types selectors value = .error (.kind kind)) :
    ∀ crashes, kind.Ordinary crashes :=
  (set_plain types selectors root value kind failed).ordinary

end Errors

section Environments

namespace Environment

variable {env : Environment} {size : Nat}

theorem Inside.mono {larger : Nat} (inside : env.Inside size)
    (less : size ≤ larger) : env.Inside larger :=
  ⟨inside.nonempty, fun scope member entry found =>
    (inside.slots scope member entry found).trans_le less⟩

theorem Inside.keep {guard : Guard} {before after : Interpreter}
    {except : List Nat} (inside : env.Inside before.bindings.length)
    (grows : guard.Grows except before after) :
    env.Inside after.bindings.length :=
  inside.mono grows.longer

theorem Inside.resolve (inside : env.Inside size) {name : String} {id : Nat}
    (found : env.resolve name = some id) : id < size := by
  obtain ⟨scope, member, known⟩ := List.exists_of_findSome?_eq_some found
  have entry : (name, id) ∈ scope := SortedMap.mem_of_get? known
  exact inside.slots scope member _ entry

theorem Inside.push (inside : env.Inside size) {scope : NameMap Nat}
    (slots : ∀ entry ∈ scope, entry.2 < size) :
    Environment.Inside (scope :: env) size := by
  refine ⟨List.cons_ne_nil _ _, fun other member => ?_⟩
  rcases List.mem_cons.mp member with rfl | outer
  · exact slots
  · exact inside.slots other outer

/-- A declaration finds a scope, and gives the name its slot. -/
theorem Inside.declare (inside : env.Inside size) (name : String)
    {id : Nat} (bound : id < size) :
    ∃ declared, env.declare name id = some declared ∧
      declared.Inside size ∧ declared.resolve name = some id := by
  cases env with
  | nil => exact absurd rfl inside.nonempty
  | cons scope outer =>
      refine ⟨_, rfl, ⟨List.cons_ne_nil _ _, fun other member => ?_⟩, ?_⟩
      · rcases List.mem_cons.mp member with rfl | later
        · intro entry found
          rcases List.mem_cons.mp found with rfl | old
          · exact bound
          · exact inside.slots scope List.mem_cons_self entry old
        · exact inside.slots other (List.mem_cons_of_mem _ later)
      · simp [Environment.resolve]

end Environment

theorem Function.Closed.mono {function : Function} {size larger : Nat}
    (closed : function.Closed size) (less : size ≤ larger) :
    function.Closed larger :=
  ⟨fun scope member entry found =>
    (closed.closure scope member entry found).trans_le less, closed.tame,
    closed.jumps, closed.point⟩

end Environments

section State

namespace Guard

variable {guard : Guard} {fills : Fills} {state : Interpreter}
  {left : Nat}

theorem Inv.binding (inv : guard.Inv state) {id : Nat} {binding : Binding}
    {value : Value} (found : state.bindings[id]? = some binding)
    (stored : binding.value = some value) : value.Known guard.records :=
  (inv.values binding (List.mem_of_getElem? found) value stored).known

/-- More bindings and more functions. -/
theorem Inv.extend (inv : guard.Inv state) {bindings : List Binding}
    {functions : List Function}
    (values : ∀ binding ∈ bindings, ∀ value, binding.value = some value →
      binding.Holds guard.types guard.records value)
    (closed : ∀ function ∈ functions,
      function.Closed (state.bindings.length + bindings.length))
    (annotated : ∀ binding ∈ bindings, guard.types.Annotates binding.annotated)
    (returned : ∀ function ∈ functions,
      guard.types.Annotates function.returnType) :
    guard.Inv { state with
      bindings := state.bindings ++ bindings
      functions := state.functions ++ functions } := by
  refine ⟨inv.types, ?_, ?_, inv.batches, ⟨fun binding member => ?_,
    fun function member => ?_, inv.declares.returnType⟩⟩
  case refine_3 =>
    rcases List.mem_append.mp member with old | new
    · exact inv.declares.bindings binding old
    · exact annotated binding new
  case refine_4 =>
    rcases List.mem_append.mp member with old | new
    · exact inv.declares.functions function old
    · exact returned function new
  · intro binding member
    rcases List.mem_append.mp member with old | new
    · exact inv.values binding old
    · exact values binding new
  · intro function member
    simp only [List.length_append]
    rcases List.mem_append.mp member with old | new
    · exact Function.Closed.mono (inv.functions function old)
        (Nat.le_add_right _ _)
    · exact closed function new

theorem Grows.extend {except : List Nat} (bindings : List Binding)
    (functions : List Function) :
    guard.Grows except state { state with
      bindings := state.bindings ++ bindings
      functions := state.functions ++ functions } := by
  refine ⟨by simp, rfl, fun _ id _ empty => ?_⟩
  obtain ⟨binding, found, none⟩ := empty
  have inside := (List.getElem?_eq_some_iff.mp found).1
  refine ⟨binding, ?_, none⟩
  rw [← found]
  exact List.getElem?_append_left inside

theorem runs_step {point : Point} :
    guard.Runs fills (tick point)
      (fun _ after left' => after.bindings = state.bindings ∧ left' < left)
      state left :=
  runs_tick fun _ less => ⟨rfl, less⟩

theorem runs_operation {α : Type} {point : Point}
    {result : Except ErrorKind α} (operational : Operational result) :
    guard.Runs fills (lift point result)
      (fun value after _ => result = .ok value ∧ after = state)
      state left :=
  runs_lift (fun _ same _ _ => ⟨same, rfl⟩) fun kind failed =>
    operational kind failed _

theorem runs_attempt {α : Type} {point : Point} {result : Except Fault α}
    (settles : Settles result) :
    guard.Runs fills (attempt point result)
      (fun value after _ => result = .ok value ∧ after = state)
      state left := by
  match result, settles with
  | .ok value, _ => exact runs_pure fun _ _ => ⟨rfl, rfl⟩
  | .error (.kind kind), settles =>
      exact runs_fail (settles.ordinary kind rfl _)
  | .error .panic, settles => exact absurd rfl settles.defined

theorem guards_allocate {binding : Binding}
    {post : Nat → Interpreter → Nat → Prop}
    (annotated : guard.types.Annotates binding.annotated)
    (known : ∀ value, binding.value = some value →
      binding.Holds guard.types guard.records value)
    (holds : ∀ left' ≤ left, post state.bindings.length
      { state with bindings := state.bindings ++ [binding] } left') :
    guard.Runs fills (allocate binding) post state left := by
  have same : { state with bindings := state.bindings ++ [binding] } =
      { state with
        bindings := state.bindings ++ [binding]
        functions := state.functions ++ [] } := by
    rw [List.append_nil]
  refine runs_ret rfl ?_ (fun inv => ?_) fun _ => holds
  · rw [same]
    exact .extend _ _
  · rw [same]
    refine inv.extend (fun other member => ?_) nofun
      (fun other member => ?_) nofun
    · rw [List.mem_singleton] at member
      exact member ▸ known
    · rw [List.mem_singleton] at member
      exact member ▸ annotated

/-- A variable that starts with a value. -/
theorem runs_fresh {annotated : Option ResolvedType} {value : Value}
    {mutable : Bool} (known : value.Known guard.records)
    (fits : guard.types.Fits annotated value)
    (annotates : guard.types.Annotates annotated) :
    guard.Runs fills (allocate ⟨annotated, some value, mutable⟩)
      (fun id after _ => id < after.bindings.length) state left := by
  refine guards_allocate annotates ?_ fun _ _ => by simp
  rintro _ ⟨⟩
  exact ⟨known, fits⟩

theorem runs_binding {id : Nat} (inside : id < state.bindings.length) :
    guard.Runs fills (binding id)
      (fun binding after _ => state.bindings[id]? = some binding ∧
        after = state) state left := by
  have found := List.getElem?_eq_getElem inside
  have same : binding id state = .ret (.ok state.bindings[id], state) := by
    simp [Interp.binding, inside]
  exact runs_ret same (.refl state) (fun inv => inv)
    fun _ _ _ => ⟨found, rfl⟩

/-- A read finds the value of an initialized binding. -/
theorem runs_read {point : Point} {id : Nat}
    (inside : id < state.bindings.length) :
    guard.Runs fills (read point id)
      (fun value after _ => value.Known guard.records ∧ after = state ∧
        ¬ Uninitialized state id) state left := by
  refine Runs.assume fun inv => ?_
  refine (runs_binding inside).bind fun binding next left' _ _ _ held => ?_
  obtain ⟨found, rfl⟩ := held
  cases stored : binding.value with
  | none => exact runs_fail trivial
  | some value =>
      refine runs_pure fun _ _ => ⟨inv.binding found stored, rfl, ?_⟩
      rintro ⟨other, same, empty⟩
      cases found.symm.trans same
      rw [stored] at empty
      cases empty

theorem guards_write {id : Nat} {value : Value}
    (known : value.Known guard.records)
    (fits : ∀ binding, state.bindings[id]? = some binding →
      guard.types.Fits binding.annotated value)
    (inside : id < state.bindings.length) :
    guard.Runs ⟨[id], []⟩ (write id value)
      (fun _ after _ => after.bindings.length = state.bindings.length ∧
        ∃ binding, after.bindings[id]? = some binding ∧
          binding.value = some value) state left := by
  have found := List.getElem?_eq_getElem inside
  have same : write id value state = .ret (.ok (), { state with
      bindings := state.bindings.modify id fun binding =>
        { binding with value := some value } }) := if_pos inside
  refine runs_ret same ?_ ?_ ?_
  · refine ⟨by simp, rfl, fun _ other different empty => ?_⟩
    obtain ⟨binding, found, none⟩ := empty
    rw [List.mem_singleton] at different
    exact ⟨binding, by simp [found, Ne.symm different], none⟩
  · intro inv
    refine ⟨inv.types, ?_, ?_, inv.batches, ⟨fun binding member => ?_,
      inv.declares.functions, inv.declares.returnType⟩⟩
    case refine_3 =>
      obtain ⟨other, position⟩ := List.mem_iff_getElem?.mp member
      simp only [List.getElem?_modify] at position
      obtain ⟨old, found, changed⟩ := Option.map_eq_some_iff.mp position
      have annotated := inv.declares.bindings old
        (List.mem_of_getElem? found)
      split at changed <;> cases changed <;> exact annotated
    · intro binding member stored same
      obtain ⟨other, position⟩ := List.mem_iff_getElem?.mp member
      simp only [List.getElem?_modify] at position
      obtain ⟨old, found, changed⟩ := Option.map_eq_some_iff.mp position
      split at changed
      · next here =>
          cases changed
          cases same
          subst here
          exact ⟨known, fits old found⟩
      · cases changed
        exact inv.values _ (List.mem_of_getElem? found) stored same
    · simpa using inv.functions
  · exact fun _ _ _ => ⟨by simp,
      { state.bindings[id] with value := some value }, by simp [found], rfl⟩

theorem runs_check {point : Point} {expected : Option ResolvedType}
    {value : Value} (annotates : guard.types.Annotates expected) :
    guard.Runs fills (check point expected value)
      (fun _ after _ => after = state ∧ guard.types.Fits expected value ∧
        state.types.checkValueType expected value = .ok ())
      state left := by
  refine Runs.assume fun inv => ?_
  have settles : Settles (state.types.checkValueType expected value) := by
    rw [inv.types]
    exact checkValueType_settles annotates value
  have checks : guard.Runs fills
      (attempt point (state.types.checkValueType expected value))
      (fun _ after _ => after = state ∧ guard.types.Fits expected value ∧
        state.types.checkValueType expected value = .ok ())
      state left :=
    (runs_attempt settles).mono fun _ _ _ _ _ _ passed =>
      ⟨passed.2, fun ty same =>
        Value.admits_of_check (inv.types ▸ passed.1) same, passed.1⟩
  exact checks

theorem runs_checkBinding {point : Point} {id : Nat} {value : Value}
    (inside : id < state.bindings.length) :
    guard.Runs fills (checkBinding point id value)
      (fun _ after _ => after = state ∧ (∀ binding,
        state.bindings[id]? = some binding →
          guard.types.Fits binding.annotated value) ∧
        state.Admits id value) state left := by
  refine (runs_binding inside).bind fun binding next left' _ _ inv held => ?_
  obtain ⟨found, rfl⟩ := held
  have annotates := inv.declares.bindings binding
    (List.mem_of_getElem? found)
  refine (runs_check annotates).mono
    fun _ after _ _ _ _ passed => ⟨passed.1, ?_, binding, found, passed.2.2⟩
  intro other same
  cases found.symm.trans same
  exact passed.2.1

theorem runs_checkReturn {point : Point} {value : Value} :
    guard.Runs fills (checkReturn point value)
      (fun _ after _ => after = state ∧
        guard.types.Fits after.returnType value) state left := by
  refine Runs.assume fun inv => ?_
  have checks : guard.Runs fills (check point state.returnType value)
      (fun _ after _ => after = state ∧
        guard.types.Fits after.returnType value) state left :=
    (runs_check inv.declares.returnType).mono fun _ _ _ _ _ _ passed => by
      obtain ⟨rfl, fits, _⟩ := passed
      exact ⟨rfl, fits⟩
  exact checks

theorem guards_checkAssignable {point : Point} {id : Nat}
    (inside : id < state.bindings.length) :
    guard.Runs fills (checkAssignable point id)
      (fun _ after _ => after = state) state left := by
  refine (runs_binding inside).bind fun binding next left' _ _ _ held => ?_
  obtain ⟨_, rfl⟩ := held
  refine Runs.ite (fun _ => runs_fail trivial) fun _ => ?_
  by_cases captured : id < next.capturedBindings
  · have failed : guard.Runs fills
        (fail point .capturedAssignment : Interp Unit)
        (fun _ after _ => after = next) next left' := runs_fail trivial
    intro inv
    simpa [captured] using failed inv
  · have passed : guard.Runs fills (pure () : Interp Unit)
        (fun _ after _ => after = next) next left' := runs_pure fun _ _ => rfl
    intro inv
    simpa [captured] using passed inv

theorem runs_function {point : Point} {id given : Nat} :
    guard.Runs fills (function point id given)
      (fun found after _ => found.Closed state.bindings.length ∧
        guard.types.Annotates found.returnType ∧ after = state)
      state left := by
  intro inv
  have fails : ∀ kind : ErrorKind, kind.Ordinary guard.crashes →
      (fail point kind state : Comp effects _).Within guard.ledger
        (fun outcome left' => guard.After fills state
          (fun (found : Function) after _ =>
            found.Closed state.bindings.length ∧
              guard.types.Annotates found.returnType ∧ after = state)
          outcome.1 outcome.2 left') left :=
    fun _ ordinary => runs_fail ordinary inv
  unfold Interp.function
  split
  · exact fails _ trivial
  · split
    · exact fails _ trivial
    · next found known =>
        split
        · exact fails _ trivial
        · have passed : guard.Runs fills (pure found)
              (fun found after _ => found.Closed state.bindings.length ∧
                guard.types.Annotates found.returnType ∧ after = state)
              state left :=
            runs_pure fun _ _ =>
              ⟨inv.functions _ (List.mem_of_getElem? known),
                inv.declares.functions _ (List.mem_of_getElem? known), rfl⟩
          exact passed inv

theorem runs_resolve {point : Point} {env : Environment} {name : String} :
    guard.Runs fills (resolve point env name)
      (fun id after _ => env.resolve name = some id ∧ after = state)
      state left := by
  unfold Interp.resolve
  cases found : env.resolve name with
  | none => exact runs_fail trivial
  | some id => exact runs_pure fun _ _ => ⟨rfl, rfl⟩

/-- An operation that only reads the state. -/
theorem runs_ask {α : Type} {comp : Interp α} {value : Interpreter → α}
    (same : ∀ state, comp state = .ret (.ok (value state), state)) :
    guard.Runs fills comp
      (fun answer after _ => answer = value state ∧ after = state)
      state left :=
  runs_ret (same state) (.refl state) id fun _ _ _ => ⟨rfl, rfl⟩

theorem runs_types :
    guard.Runs fills Interp.types
      (fun types after _ => types = guard.types ∧ after = state)
      state left := by
  refine Runs.assume fun inv => ?_
  refine (runs_ask fun _ => rfl).mono fun types after _ _ _ _ held => ?_
  exact ⟨held.1.trans inv.types, held.2⟩

theorem runs_print {point : Point} {text : String} :
    guard.Runs fills (print point text)
      (fun _ after _ => after.bindings = state.bindings) state left := by
  cases buffered : state.runtime.buffer with
  | none =>
      have direct : guard.Runs fills (call point (.print text))
          (fun _ after _ => after.bindings = state.bindings) state left :=
        runs_call nofun fun _ _ _ _ => rfl
      intro inv
      simpa [Interp.print, buffered] using direct inv
  | some buffer =>
      cases pushed : buffer.push text with
      | none =>
          have failed : guard.Runs fills
              (fail point .outputLimit : Interp Unit)
              (fun _ after _ => after.bindings = state.bindings)
              state left := runs_fail trivial
          intro inv
          simpa [Interp.print, buffered, pushed] using failed inv
      | some after =>
          have prints : print point text state = .ret (.ok (), { state with
              runtime := { state.runtime with buffer := some after } }) := by
            simp [Interp.print, buffered, pushed]
          exact runs_ret prints (.same rfl rfl)
            (fun inv => ⟨inv.types, inv.values, inv.functions, inv.batches,
              inv.declares⟩)
            fun _ _ _ => rfl

theorem runs_fork {point : Point} :
    guard.Runs fills (fork point)
      (fun _ after _ => after.bindings = state.bindings) state left := by
  have calls : guard.Runs .none (call point .fork)
      (fun _ after _ => after = state) state left :=
    runs_call nofun fun _ _ _ _ => rfl
  refine calls.bind fun _ next _ _ _ _ held => ?_
  subst held
  exact runs_ret rfl (.same rfl rfl)
    (fun inv => ⟨inv.types, inv.values, inv.functions, inv.batches,
      inv.declares⟩)
    fun _ _ _ => rfl

end Guard

end State

end NetLang
