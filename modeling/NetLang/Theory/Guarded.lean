import NetLang.Theory.Operands

/-!
# Guarded expressions

Every expression, call and parallel statement keeps the invariant, given that
the nested ones do.
-/

namespace NetLang

open Interp Guard

namespace Guard

variable (guard : Guard)

/-- What an expression leads to; it takes a step at least. -/
def Yields (left : Nat) (value : Value) (_ : Interpreter) (left' : Nat) :
    Prop :=
  value.Known guard.records ∧ left' < left

/-- A flow that is normal or one of the jumps.  A value that is returned has
the type to return. -/
structure Leaves (returnType : Option ResolvedType) (jumps : List Jump)
    (flow : Flow) : Prop where
  among : flow.Among jumps
  known : ∀ value, flow = .return value → value.Known guard.records
  fits : ∀ value, flow = .return value →
    guard.types.Fits returnType value

variable {guard} {jumps : List Jump} {returnType : Option ResolvedType}

theorem leaves_normal : guard.Leaves returnType jumps .normal :=
  ⟨Flow.normal_among _, nofun, nofun⟩

theorem Leaves.mono {more : List Jump} {flow : Flow}
    (leaves : guard.Leaves returnType jumps flow) (subset : jumps ⊆ more) :
    guard.Leaves returnType more flow :=
  ⟨leaves.among.mono subset, leaves.known, leaves.fits⟩

end Guard

/-- What the fuel induction carries. -/
structure Evaluator.Guarded (guard : Guard) (given : Evaluator) : Prop where
  expression : ∀ {env : Environment} {state : Interpreter} {left : Nat},
    guard.Fueled left given.clock → env.Inside state.bindings.length →
    ∀ point node, guard.Runs .none (given.expression point node env)
      (guard.Yields left) state left
  body : ∀ {env : Environment} {state : Interpreter} {left : Nat},
    guard.Fueled left given.clock → env.Inside state.bindings.length →
    ∀ point node, point ≠ [] → node.Tame →
      guard.Runs .none (given.body point node env)
        (fun outcome after _ =>
          guard.Leaves after.returnType node.jumps outcome.1) state left
  whileLoop : ∀ {env : Environment} {state : Interpreter} {left : Nat},
    guard.short ∨ 2 * left + 1 < given.clock →
    env.Inside state.bindings.length →
    ∀ point test body, body.Tame →
      guard.Runs .none (given.whileLoop point test body env)
        (fun flow after _ =>
          guard.Leaves after.returnType (body.jumps.filter (· = .return)) flow)
        state left

variable {guard : Guard} {self : Evaluator} {env : Environment}
  {state : Interpreter} {left : Nat}

section Expressions

variable (guarded : self.Guarded guard) (fueled : guard.Fueled left self.clock)
  (inside : env.Inside state.bindings.length)
include guarded fueled inside

theorem guards_expressions (point : Point) (i : Nat) (values : List Expr) :
    guard.Runs .none (expressions self point env i values)
      (fun values _ _ => ∀ value ∈ values, value.Known guard.records)
      state left := by
  induction values generalizing i state left with
  | nil => exact runs_pure fun _ _ => nofun
  | cons value rest induction =>
      refine (guarded.expression fueled inside _ _).bind
        fun value next left' less grows _ held => ?_
      refine (induction (fueled.mono less) (inside.mono grows.longer) _).bind
        fun values _ _ _ _ _ known => runs_pure fun _ _ other member => ?_
      rcases List.mem_cons.mp member with rfl | later
      · exact held.1
      · exact known other later

theorem guards_objectFields (point : Point) (i : Nat)
    (fields : List (String × Expr)) (values : SortedMap Value)
    (known : ∀ field ∈ values, field.2.Known guard.records) :
    guard.Runs .none (objectFields self point env i fields values)
      (fun values _ _ => ∀ field ∈ values, field.2.Known guard.records)
      state left := by
  induction fields generalizing i values state left with
  | nil => exact runs_pure fun _ _ => known
  | cons field rest induction =>
      refine (guarded.expression fueled inside _ _).bind
        fun value next left' less grows _ held => ?_
      exact induction (fueled.mono less) (inside.mono grows.longer) _ _
        (Value.known_insert known held.1)

theorem guards_constructorFields (point : Point) (id i : Nat)
    (fields done : List (String × Expr)) (values : SortedMap Value)
    (known : ∀ field ∈ values, field.2.Known guard.records)
    (built : guard.types.Builds id done values) :
    guard.Runs .none (constructorFields self point env
        (guard.types.fields id).value i fields values)
      (fun values _ _ => (∀ field ∈ values, field.2.Known guard.records) ∧
        guard.types.Builds id (done ++ fields) values)
      state left := by
  induction fields generalizing i done values state left with
  | nil =>
      rw [List.append_nil]
      exact runs_pure fun _ _ => ⟨known, built⟩
  | cons field rest induction =>
      obtain ⟨key, expression⟩ := field
      refine (guarded.expression fueled inside _ _).bind
        fun value next left' less grows _ held => ?_
      refine runs_types.bind fun types _ _ again _ _ same => ?_
      obtain ⟨rfl, rfl⟩ := same
      refine ((runs_check
        (guard.types.annotates_bind _ _)).relocate).bind
        fun _ _ _ fewer _ _ passed => ?_
      obtain ⟨rfl, fits, _⟩ := passed
      have more : guard.types.Builds id (done ++ [(key, expression)])
          (SortedMap.insert values key value) := built.insert fits
      have runs := induction ((fueled.mono less).mono (fewer.trans again))
        (inside.mono grows.longer) (i + 1) _ _
        (Value.known_insert known held.1) more
      rwa [List.append_assoc] at runs

theorem guards_construct (point : Point) (name : String)
    (fields : List (String × Expr)) (allowed : guard.constructs name fields) :
    guard.Runs .none (construct self point env name fields)
      (fun value _ _ => value.Known guard.records) state left := by
  refine runs_types.bind fun types _ _ less _ _ same => ?_
  obtain ⟨rfl, rfl⟩ := same
  cases resolved : guard.types.resolve name with
  | none => exact runs_fail trivial
  | some ty =>
    cases ty with
    | primitive primitive => exact runs_fail trivial
    | named id =>
      have read : (guard.types.fields id).get =
          .ok (guard.types.fields id).value := by
        rw [Read.get, TypeRegistry.fields_failed
          (TypeRegistry.lt_of_resolve resolved)]
        rfl
      have settles : Settles (guard.types.fields id).get := by
        rw [read]
        constructor <;> simp
      have empty : guard.types.Builds id [] [] :=
        ⟨by simp, by simp⟩
      refine (runs_attempt settles).bind
        fun definition _ _ fewer _ _ same => ?_
      obtain ⟨same, rfl⟩ := same
      cases read.symm.trans same
      refine (guards_constructorFields guarded
        ((fueled.mono less).mono fewer) inside _ _ _
        fields [] [] (by simp) empty).bind
          fun values _ _ _ _ _ held => ?_
      exact runs_pure fun _ _ => Value.known_record.mpr
        ⟨fun _ => guard.declared name fields id values allowed resolved
          held.2, held.1⟩

omit guarded fueled inside in
theorem guards_connect (point : Point) (transport : Transport)
    (protocol : Option String) (address : Value) :
    guard.Runs .none (connect point transport protocol address)
      (fun value _ _ => value.Known guard.records) state left := by
  unfold connect
  split
  · refine .ite (fun _ => runs_fail trivial) fun _ => ?_
    refine (runs_operation (configuredAddress_operational _ _)).bind
      fun address _ _ _ _ _ _ => ?_
    unfold openConfigured
    cases transport with
    | udp => exact runs_call nofun fun answer known _ _ =>
        known answer List.mem_cons_self
    | tcp => exact runs_call nofun fun answer known _ _ =>
        known answer List.mem_cons_self
  · exact runs_call nofun fun answer known _ _ =>
      known answer List.mem_cons_self
  · exact runs_fail trivial

theorem guards_sendDestination (point : Point) (destination : Option Expr) :
    guard.Runs .none (sendDestination self point env destination)
      (fun _ _ _ => True) state left := by
  cases destination with
  | none => exact runs_pure fun _ _ => trivial
  | some destination =>
      refine (guarded.expression fueled inside _ _).bind
        fun value _ _ _ _ _ _ => ?_
      split
      · exact runs_pure fun _ _ => trivial
      · exact runs_fail trivial

theorem guards_request (point : Point) (method : HttpMethod)
    (config : Option Expr) (url : Value) :
    guard.Runs .none (request self point env method config url)
      (fun value _ _ => value.Known guard.records) state left := by
  have calls : ∀ (text : String) (value : Value) (state : Interpreter)
      (left : Nat), value.Known guard.records →
      guard.Runs .none (call point (.request method text value))
        (fun value _ _ => value.Known guard.records) state left := by
    intro text value state left known
    refine runs_call ?_ fun answer replied _ _ =>
      replied answer List.mem_cons_self
    intro argument member
    rw [HostCall.arguments, List.mem_singleton] at member
    exact member ▸ known
  unfold request
  split
  · cases config with
    | some config =>
        exact (guarded.expression fueled inside _ _).bind
          fun value _ _ _ _ _ held => calls _ _ _ _ held.1
    | none => exact calls _ _ _ _ (Value.known_object.mpr nofun)
  · exact runs_fail trivial

theorem guards_logical (point : Point) (op : BinaryOp) (right : Expr)
    (left' : Value) :
    guard.Runs .none (logical self point env op right left')
      (fun value _ _ => value.Known guard.records) state left := by
  refine (runs_operation (asBoolean_operational _)).bind
    fun first _ _ less _ _ same => ?_
  obtain ⟨_, rfl⟩ := same
  refine .ite (fun _ => runs_pure fun _ _ => Value.known_atom rfl) fun _ => ?_
  refine (guarded.expression (fueled.mono less) inside _ _).bind
    fun value _ _ _ _ _ _ => ?_
  exact (runs_operation (asBoolean_operational _)).bind
    fun _ _ _ _ _ _ _ => runs_pure fun _ _ => Value.known_atom rfl

omit fueled inside in
theorem guards_target (env : Environment) :
    ∀ (point : Point) (node : Expr) (state : Interpreter) (left : Nat),
      guard.Fueled left self.clock → env.Inside state.bindings.length →
      guard.Runs .none (target self env point node)
        (fun outcome after left' => outcome.1 < after.bindings.length ∧
          left' < left) state left
  | point, .located span inner, state, left, fueled, inside => by
      have inner := guards_target env point inner
        { state with currentSpan := (some span).or state.currentSpan } left
        fueled inside
      exact inner.withSpan fun _ _ _ held => held
  | point, .identifier name, state, left, fueled, inside => by
      refine runs_step.bind fun _ next _ _ grows _ stepped => ?_
      refine runs_resolve.bind fun id _ left'' fewer _ _ held => ?_
      obtain ⟨found, rfl⟩ := held
      exact runs_pure fun _ again =>
        ⟨(inside.mono grows.longer).resolve found, by omega⟩
  | point, .property object name, state, left, fueled, inside => by
      refine runs_step.bind fun _ next left' fewer grows _ stepped => ?_
      refine (guards_target env _ object next left' (fueled.mono fewer)
        (inside.mono grows.longer)).bind fun outcome last _ _ _ _ held => ?_
      exact runs_pure fun _ again => ⟨held.1, by omega⟩
  | point, .index object subscript, state, left, fueled, inside => by
      refine runs_step.bind fun _ next left' fewer grows _ stepped => ?_
      refine (guards_target env _ object next left' (fueled.mono fewer)
        (inside.mono grows.longer)).bind
        fun outcome last left'' more longer _ held => ?_
      refine (guarded.expression ((fueled.mono fewer).mono more)
        ((inside.mono grows.longer).mono longer.longer) _ _).bind
        fun value _ _ _ further _ _ => ?_
      exact runs_pure fun _ again =>
        ⟨held.1.trans_le further.longer, by omega⟩
  | point, .construct _ _, _, _, _, _ | point, .connection _ _ _, _, _, _, _
  | point, .send _ _ _, _, _, _, _ | point, .receive _, _, _, _, _
  | point, .request _ _ _, _, _, _, _ | point, .integer _, _, _, _, _
  | point, .float _, _, _, _, _ | point, .string _, _, _, _, _
  | point, .boolean _, _, _, _, _ | point, .null, _, _, _, _
  | point, .duration _, _, _, _, _ | point, .array _, _, _, _, _
  | point, .object _, _, _, _, _ | point, .unary _ _, _, _, _, _
  | point, .binary _ _ _, _, _, _, _ | point, .assignment _ _, _, _, _, _
  | point, .call _ _, _, _, _, _ =>
      runs_step.bind fun _ _ _ _ _ _ _ => runs_fail trivial

omit guarded fueled inside in
/-- A store that the checks admit finds its binding initialized: a path reads
its root first, and of a direct one this is assumed. -/
theorem guards_store (point : Point) (id : Nat) (selectors : List Selector)
    (value : Value) (known : value.Known guard.records)
    (bound : id < state.bindings.length)
    (careful : guard.careful → selectors = [] → state.Admits id value →
      ¬ Uninitialized state id) :
    guard.Runs .none (store point id selectors value)
      (fun _ _ _ => guard.careful → ¬ Uninitialized state id) state left := by
  have writes : ∀ (value : Value) (state : Interpreter) (left : Nat),
      value.Known guard.records → id < state.bindings.length →
      (guard.careful → state.Admits id value → ¬ Uninitialized state id) →
      guard.Runs .none (do
        checkBinding point id value
        write id value)
        (fun _ _ _ => guard.careful → ¬ Uninitialized state id)
        state left := by
    intro value state left known bound careful
    refine (runs_checkBinding bound).bind fun _ _ _ _ _ _ passed => ?_
    obtain ⟨rfl, fits, admitted⟩ := passed
    intro inv
    refine (guards_write known fits bound inv).mono ?_
    rintro ⟨result, after⟩ left' _ held
    refine ⟨?_, held.inv, fun _ _ assumed => careful assumed admitted,
      held.error⟩
    refine ⟨held.grows.longer, held.grows.returnType,
      fun assumed other _ empty => ?_⟩
    refine held.grows.kept assumed other (fun member => ?_) empty
    cases result with
    | ok value =>
        rw [Fills.after, List.mem_singleton] at member
        exact careful assumed admitted (member ▸ empty)
    | error reason => cases member
  unfold store
  split
  · next empty =>
      exact writes value state left known bound
        fun assumed => careful assumed (List.isEmpty_iff.mp empty)
  · refine (runs_read bound).bind fun root next _ _ _ _ held => ?_
    obtain ⟨rootKnown, rfl, initialized⟩ := held
    refine runs_types.bind fun types last left' _ _ _ same => ?_
    obtain ⟨rfl, rfl⟩ := same
    have set : Value.SetKnown guard.records guard.types
        (Value.set guard.types root selectors value) :=
      rootKnown.set guard.identity guard.updates known
    have updates : guard.Runs .none
        (attempt point (Value.set guard.types root selectors value))
        (fun root after _ => root.Known guard.records ∧ after = last)
        last left' := by
      match done : Value.set guard.types root selectors value, set with
      | .ok root', set => exact runs_pure fun _ _ => ⟨set, rfl⟩
      | .error (.kind kind), _ => exact runs_fail (set_operational done _)
      | .error .panic, set => exact runs_stop set
    refine updates.bind fun root' _ _ _ _ _ held => ?_
    obtain ⟨known, rfl⟩ := held
    exact writes root' _ _ known bound fun _ _ => initialized

/-- An assignment through selectors reads its root, and a direct one is taken
not to give a binding its first value. -/
theorem guards_assign (point : Point) (target value : Expr) (id : Nat)
    (selectors : List Selector) (bound : id < state.bindings.length) :
    guard.Runs .none (assign self point env target value id selectors)
      (fun value _ _ => value.Known guard.records) state left := by
  have runs : guard.Runs .none (do
      checkAssignable point id
      let value ← self.expression (1 :: point) value env
      observe (.storing point id selectors value)
      store point id selectors value
      pure value) (fun value _ _ => value.Known guard.records ∧
        (guard.careful → ¬ Uninitialized state id)) state left := by
    refine (guards_checkAssignable bound).bind fun _ _ _ less _ _ same => ?_
    subst same
    refine (guarded.expression (fueled.mono less) inside _ _).bind
      fun value next left' _ grows _ held => ?_
    refine runs_observe trivial (fun inv => ⟨inv.stores, held.1⟩)
      fun careful => ?_
    have stored : guard.Runs .none (store point id selectors value)
        (fun _ _ _ => guard.careful → ¬ Uninitialized next id) next left' :=
      guards_store point id selectors value held.1
        (bound.trans_le grows.longer) careful
    refine stored.bindPure fun _ _ _ initialized => ⟨held.1, ?_⟩
    exact fun assumed empty =>
      initialized assumed (grows.kept assumed id nofun empty)
  refine (runs_reported runs ?_ ?_).mono fun _ _ _ _ _ _ held => held.1
  · intro result after left' _ held
    refine ⟨held.error, ?_, fun assumed empty value same => ?_⟩
    · cases result with
      | ok value => exact held.grows
      | error reason => exact held.grows
    · exact (held.ok value same).2 assumed empty
  · intro result after left' inv held
    exact ⟨inv.stores, held.inv.stores,
      fun value same => (held.ok value same).1⟩

end Expressions

section Calls

theorem guards_callBuiltin (point : Point) (builtin : Builtin)
    (arguments : List Value)
    (known : ∀ value ∈ arguments, value.Known guard.records) :
    guard.Runs .none (callBuiltin point builtin arguments)
      (fun value _ _ => value.Known guard.records) state left := by
  have single : ∀ value argument : Value, value.Known guard.records →
      argument ∈ [value] → argument.Known guard.records := by
    intro value argument held member
    rw [List.mem_singleton] at member
    exact member ▸ held
  unfold callBuiltin
  refine .ite (fun _ => runs_fail trivial) fun count => ?_
  split
  · cases builtin <;> simp [Builtin.arity] at count
  · next argument rest =>
      have held := known argument List.mem_cons_self
      unfold setTimeout
      split
      · refine .ite (fun _ => ?_) fun _ => runs_fail trivial
        have calls : ∀ milliseconds, guard.Runs .none
            (call point (.setTimeout argument milliseconds))
            (fun _ _ _ => True) state left := fun _ =>
          runs_call (fun value => single argument value held)
            fun _ _ _ _ => trivial
        exact (calls _).bind fun _ _ _ _ _ _ _ =>
          runs_pure fun _ _ => Value.known_atom rfl
      · exact runs_fail trivial
  · next listener rest =>
      have held := known listener List.mem_cons_self
      exact runs_call (fun value => single listener value held)
        fun answer replied _ _ => replied answer List.mem_cons_self
  · next connection rest =>
      have held := known connection List.mem_cons_self
      have calls : guard.Runs .none (call point (.localAddress connection))
          (fun _ _ _ => True) state left :=
        runs_call (fun value => single connection value held)
          fun _ _ _ _ => trivial
      exact calls.bind fun _ _ _ _ _ _ _ =>
        runs_pure fun _ _ => Value.known_atom rfl
  · next connection rest =>
      have held := known connection List.mem_cons_self
      have calls : guard.Runs .none (call point (.close connection))
          (fun _ _ _ => True) state left :=
        runs_call (fun value => single connection value held)
          fun _ _ _ _ => trivial
      exact calls.bind fun _ _ _ _ _ _ _ =>
        runs_pure fun _ _ => Value.known_atom rfl
  · exact (runs_operation (pureBuiltin_operational _ _)).mono
      fun value _ _ _ _ _ held =>
        Value.known_atom (pureBuiltin_scalar _ _ value held.1)

theorem guards_bindParameters (point : Point) (parameters : List Parameter)
    (arguments : List Value) (bound : NameMap Nat)
    (known : ∀ value ∈ arguments, value.Known guard.records)
    (slots : ∀ entry ∈ bound, entry.2 < state.bindings.length) :
    guard.Runs .none (bindParameters point parameters arguments bound)
      (fun bound after _ => ∀ entry ∈ bound, entry.2 < after.bindings.length)
      state left := by
  induction parameters generalizing arguments bound state left with
  | nil =>
      unfold bindParameters
      exact runs_pure fun _ _ => slots
  | cons parameter parameters induction =>
      cases arguments with
      | nil => exact runs_pure fun _ _ => slots
      | cons value arguments =>
          refine (runs_ask fun _ => rfl).bind
            fun annotated _ _ _ _ inv same => ?_
          obtain ⟨named, rfl⟩ := same
          have annotates : guard.types.Annotates annotated := by
            rw [named, ← inv.types]
            exact TypeRegistry.annotates_bind _ _ _
          refine (runs_check annotates).bind fun _ _ _ _ _ _ same => ?_
          obtain ⟨rfl, fits, _⟩ := same
          refine (runs_fresh (known value List.mem_cons_self) fits
            annotates).bind
            fun id next _ _ grows _ inside => ?_
          refine induction _ _
            (fun other member => known other (List.mem_cons_of_mem _ member))
            fun entry member => ?_
          rcases List.mem_cons.mp member with rfl | old
          · exact inside
          · exact (slots entry old).trans_le grows.longer

variable [Formatting] (guarded : self.Guarded guard)
  (fueled : guard.Fueled left self.clock)
include guarded fueled

omit [Formatting] in
theorem guards_enterFunction (point : Point) (function : Function)
    (parameters : NameMap Nat)
    (closed : function.Closed state.bindings.length)
    (annotates : guard.types.Annotates function.returnType)
    (slots : ∀ entry ∈ parameters, entry.2 < state.bindings.length) :
    guard.Runs .none (enterFunction self point function parameters)
      (fun value _ _ => value.Known guard.records ∧
        guard.types.Fits function.returnType value) state left := by
  have inside : Environment.Inside (parameters :: function.closure)
      state.bindings.length := by
    refine ⟨List.cons_ne_nil _ _, fun scope member => ?_⟩
    rcases List.mem_cons.mp member with rfl | captured
    · exact slots
    · exact closed.closure scope captured
  have entered : Environment.Inside (parameters :: function.closure)
        state.bindings.length →
      Environment.Inside (parameters :: function.closure)
        ({ state with
          callStack := state.callStack ++ [function.name]
          expressionDepth := 0
          returnType := function.returnType } :
            Interpreter).bindings.length := id
  refine runs_reported ?_ (fun result _ _ _ held => ⟨held.error, ?_⟩)
    fun _ _ _ inv held => ⟨inv.stores, held.inv.stores, held.ok⟩
  · refine Runs.assume fun entry => ?_
    refine runs_around
      (fun inv => ⟨inv.types, inv.values, inv.functions, inv.batches,
        ⟨inv.declares.bindings, inv.declares.functions, annotates⟩⟩) rfl
      ?_ (fun _ inv => ⟨inv.types, inv.values, inv.functions, inv.batches,
        ⟨inv.declares.bindings, inv.declares.functions,
          entry.declares.returnType⟩⟩)
      (fun _ => rfl) (fun _ _ => rfl) fun _ _ _ _ held => held
    have body := guarded.body fueled (entered inside)
      (0 :: function.point) function.body (List.cons_ne_nil _ _) closed.tame
    refine body.bind fun outcome next left' _ grows _ leaves => ?_
    obtain ⟨flow, final⟩ := outcome
    have only : ∀ jump, flow.jump? = some jump → jump = .return :=
      fun jump same => closed.jumps jump (leaves.among jump same)
    cases flow with
    | normal =>
        refine ((runs_check annotates).relocate).bind
          fun _ _ _ _ _ _ passed => ?_
        exact runs_pure fun _ _ => ⟨Value.known_atom rfl, passed.2.1⟩
    | «break» => cases only .break rfl
    | «continue» => cases only .continue rfl
    | «return» value =>
        have fits := leaves.fits value rfl
        rw [grows.returnType] at fits
        exact runs_pure fun _ _ => ⟨leaves.known value rfl, fits⟩
  · cases result with
    | ok value => exact held.grows
    | error reason => exact held.grows

omit [Formatting] in
theorem guards_callFunction (point : Point) (id : Nat)
    (arguments : List Value)
    (known : ∀ value ∈ arguments, value.Known guard.records) :
    guard.Runs .none (callFunction self point id arguments)
      (fun value _ _ => value.Known guard.records) state left := by
  refine runs_function.bind fun function _ _ less _ _ held => ?_
  obtain ⟨closed, annotates, rfl⟩ := held
  refine (guards_bindParameters point _ _ [] known nofun).bind
    fun parameters next _ fewer grows _ slots => ?_
  exact (guards_enterFunction guarded ((fueled.mono less).mono fewer) point
    function parameters (Function.Closed.mono closed grows.longer) annotates
    slots).mono fun _ _ _ _ _ _ held => held.1

theorem guards_callValue (point : Point) (callee : Value)
    (arguments : List Value)
    (known : ∀ value ∈ arguments, value.Known guard.records) :
    guard.Runs .none (callValue self point callee arguments)
      (fun value _ _ => value.Known guard.records) state left := by
  unfold callValue
  split
  · exact guards_callBuiltin point _ arguments known
  · exact runs_print.bind fun _ _ _ _ _ _ _ =>
      runs_pure fun _ _ => Value.known_atom rfl
  · exact guards_callFunction guarded fueled point _ arguments known
  · exact runs_fail trivial

variable (inside : env.Inside state.bindings.length)

omit [Formatting] guarded fueled in
include inside in
theorem guards_identifier (point : Point) (name : String) :
    guard.Runs .none (identifier point env name)
      (fun value _ _ => value.Known guard.records ∧
        ∀ id, env.resolve name = some id → ¬ Uninitialized state id)
      state left := by
  refine runs_resolve.bind fun id _ _ _ _ _ held => ?_
  obtain ⟨found, rfl⟩ := held
  refine (runs_read (inside.resolve found)).mono fun value _ _ _ _ _ held => ?_
  obtain ⟨known, _, initialized⟩ := held
  refine ⟨known, fun other same => ?_⟩
  cases found.symm.trans same
  exact initialized

include inside

theorem guards_expressionInner (point : Point) (node : Expr)
    (unlocated : ∀ span inner, node ≠ .located span inner)
    (allowed : ∀ name fields, node = .construct name fields →
      guard.constructs name fields) :
    guard.Runs .none (expressionInner self point env node)
      (fun value _ _ => value.Known guard.records) state left := by
  cases node with
  | construct name fields =>
      exact guards_construct guarded fueled inside point name fields
        (allowed name fields rfl)
  | located span inner => exact absurd rfl (unlocated span inner)
  | connection transport address protocol =>
      exact (guarded.expression fueled inside _ _).bind
        fun _ _ _ _ _ _ _ => guards_connect _ _ _ _
  | send connection data destination =>
      refine (guarded.expression fueled inside _ _).bind
        fun first next left' less grows _ held => ?_
      refine (guarded.expression (fueled.mono less)
        (inside.keep grows) _ _).bind
        fun second later left'' fewer longer _ more => ?_
      refine (guards_sendDestination guarded
        ((fueled.mono less).mono fewer)
        ((inside.keep grows).keep longer) point destination).bind
        fun text _ _ _ _ _ _ => ?_
      refine runs_call ?_ fun answer replied _ _ =>
        replied answer List.mem_cons_self
      intro value member
      simp only [HostCall.arguments, List.mem_cons, List.not_mem_nil,
        or_false] at member
      rcases member with rfl | rfl
      · exact held.1
      · exact more.1
  | receive connection =>
      refine (guarded.expression fueled inside _ _).bind
        fun value _ _ _ _ _ held => ?_
      refine runs_call ?_ fun answer replied _ _ =>
        replied answer List.mem_cons_self
      intro other member
      rw [HostCall.arguments, List.mem_singleton] at member
      exact member ▸ held.1
  | request method url config =>
      exact (guarded.expression fueled inside _ _).bind
        fun _ _ _ less grows _ _ => guards_request guarded
          (fueled.mono less) (inside.keep grows) _ _ _ _
  | integer value => exact runs_pure fun _ _ => Value.known_atom rfl
  | float value => exact runs_pure fun _ _ => Value.known_atom rfl
  | string value => exact runs_pure fun _ _ => Value.known_atom rfl
  | boolean value => exact runs_pure fun _ _ => Value.known_atom rfl
  | null => exact runs_pure fun _ _ => Value.known_atom rfl
  | duration value => exact runs_pure fun _ _ => Value.known_atom rfl
  | identifier name =>
      exact (guards_identifier inside point name).mono
        fun _ _ _ _ _ _ held => held.1
  | array values =>
      exact (guards_expressions guarded fueled inside _ _ _).bind
        fun _ _ _ _ _ _ known =>
          runs_pure fun _ _ => Value.known_array.mpr known
  | object fields =>
      exact (guards_objectFields guarded fueled inside _ _ _ [] nofun).bind
        fun _ _ _ _ _ _ known =>
          runs_pure fun _ _ => Value.known_object.mpr known
  | unary operator operand =>
      exact (guarded.expression fueled inside _ _).bind
        fun _ _ _ _ _ _ _ => (runs_operation (unary_operational _ _)).mono
          fun _ _ _ _ _ _ held => Value.known_unary held.1
  | binary left' op right =>
      refine (guarded.expression fueled inside _ _).bind
        fun _ _ _ less grows _ _ => .ite (fun _ => ?_) fun _ => ?_
      · exact guards_logical guarded (fueled.mono less)
          (inside.keep grows) _ _ _ _
      · exact (guarded.expression (fueled.mono less)
          (inside.keep grows) _ _).bind fun _ _ _ _ _ _ _ =>
            (runs_attempt (binary_settles _ _ _)).mono
              fun _ _ _ _ _ _ held =>
                Value.known_atom (binary_scalar _ _ _ _ held.1)
  | assignment target value =>
      exact (guards_target guarded env _ _ _ _ fueled inside).bind
        fun outcome _ _ less grows _ held => guards_assign guarded
          (fueled.mono less) (inside.keep grows) _ _ _ _ _ held.1
  | call callee arguments =>
      refine (guarded.expression fueled inside _ _).bind
        fun _ _ _ less grows _ _ => ?_
      exact (guards_expressions guarded (fueled.mono less)
        (inside.keep grows) _ _ _).bind fun _ _ _ fewer _ _ known =>
          guards_callValue guarded ((fueled.mono less).mono fewer) _ _ _ known
  | property object name =>
      exact (guarded.expression fueled inside _ _).bind
        fun _ _ _ _ _ _ held => (runs_operation (get_operational _ _)).mono
          fun _ _ _ _ _ _ got => held.1.get got.1
  | index object subscript =>
      exact (guarded.expression fueled inside _ _).bind
        fun _ _ _ less grows _ held => (guarded.expression (fueled.mono less)
          (inside.keep grows) _ _).bind fun _ _ _ _ _ _ _ =>
            (runs_operation (index_operational _ _)).mono
              fun _ _ _ _ _ _ got => held.1.index got.1

omit fueled in
/-- A node takes its step before it runs anything else. -/
theorem guards_expressionNode (point : Point) (node : Expr)
    (fueled : guard.Fueled left (self.clock + 1))
    (unlocated : ∀ span inner, node ≠ .located span inner) :
    guard.Runs .none (expressionNode self point env node)
      (guard.Yields left) state left := by
  have inner : (Observation.evaluating point node env state).Constructs
      guard.constructs → guard.Runs .none (do
      tick point
      nested point (expressionInner self point env node))
      (fun value _ left' => guard.Yields left value state left' ∧
        ∀ name id, node = .identifier name → env.resolve name = some id →
          ¬ Uninitialized state id) state left := by
    intro constructs
    have allowed : ∀ name fields, node = .construct name fields →
        guard.constructs name fields := by
      rintro name fields rfl
      exact constructs
    refine runs_step.bind fun _ next left' less grows _ stepped => ?_
    obtain ⟨same, fewer⟩ := stepped
    have enough : guard.Fueled left' self.clock :=
      fueled.imp_right fun bound => by omega
    have entered : env.Inside ({ next with
        expressionDepth := next.expressionDepth + 1 } :
          Interpreter).bindings.length := inside.mono grows.longer
    have empty : ∀ id, Uninitialized state id → Uninitialized ({ next with
        expressionDepth := next.expressionDepth + 1 } : Interpreter) id := by
      intro id waiting
      simpa [Uninitialized, same] using waiting
    by_cases identified : ∃ name, node = .identifier name
    · obtain ⟨name, rfl⟩ := identified
      have read : guard.Runs .none (identifier point env name) _ _ left' :=
        guards_identifier entered point name
      have runs := read.mono
        fun value after left'' bound _ _ held => And.intro held bound
      refine runs_nested runs fun value after left'' held =>
        ⟨⟨held.1.1, held.2.trans_lt fewer⟩, ?_⟩
      rintro _ id ⟨⟩ found waiting
      exact held.1.2 id found (empty id waiting)
    · have runs := (guards_expressionInner guarded enough entered
        point node unlocated allowed).mono
        fun value after left'' bound _ _ held => And.intro held bound
      refine runs_nested runs fun value after left'' held =>
        ⟨⟨held.1, held.2.trans_lt fewer⟩, ?_⟩
      exact fun name _ same => absurd ⟨name, same⟩ identified
  have starts : (Observation.evaluating point node env state).Guarded guard :=
    trivial
  refine (runs_observed starts (fun inv => inv.stores) inner ?_ ?_).mono
    fun _ _ _ _ _ _ held => held.1
  case refine_2 =>
    intro result after left' inv held
    exact ⟨inv.stores, held.inv.stores,
      fun value same => (held.ok value same).1.1⟩
  intro result after left' _ held
  refine ⟨held.error, ?_, ?_⟩
  · cases result with
    | ok value => exact held.grows
    | error reason => exact held.grows
  · rintro name id shape found waiting value rfl
    exact (held.ok value rfl).2 name id shape found waiting

omit inside fueled in
theorem guards_expression (point : Point)
    (fueled : guard.Fueled left (self.clock + 1)) :
    ∀ (node : Expr) (state : Interpreter),
      env.Inside state.bindings.length →
      guard.Runs .none (expression self point node env)
        (guard.Yields left) state left
  | .located span inner, state, inside => by
      have runs := guards_expression point fueled inner
        { state with currentSpan := (some span).or state.currentSpan } inside
      exact runs.withSpan fun _ _ _ held => held
  | .construct _ _, _, inside | .connection _ _ _, _, inside
  | .send _ _ _, _, inside | .receive _, _, inside
  | .request _ _ _, _, inside | .integer _, _, inside
  | .float _, _, inside | .string _, _, inside | .boolean _, _, inside
  | .null, _, inside | .duration _, _, inside | .identifier _, _, inside
  | .array _, _, inside | .object _, _, inside | .unary _ _, _, inside
  | .binary _ _ _, _, inside | .assignment _ _, _, inside
  | .call _ _, _, inside | .property _ _, _, inside
  | .index _ _, _, inside =>
      guards_expressionNode guarded inside point _ fueled nofun

end Calls

end NetLang
