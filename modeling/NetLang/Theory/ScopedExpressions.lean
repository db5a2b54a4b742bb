import NetLang.Theory.Scoping

/-!
# Scoped expressions

Every expression and every call keeps to the scopes that the analyzer knows,
given that the nested expressions and bodies do.
-/

namespace NetLang

open Interp Discipline

variable {final : Analyzer} {static : Static} {env : Environment}
  {state : Interpreter} {point : Point}

/-- An identifier that the analyzer takes for a function gives a value that
can be called accordingly. -/
def Answers (static : Static) (node : Expr) (value : Value)
    (after : Interpreter) : Prop :=
  ∀ name arity parameters returnType, node.unspanned = .identifier name →
    static.scopes.resolve name =
      some (.function arity parameters returnType) →
    value.Callable after.functions arity returnType

/-- What the fuel induction carries. -/
structure Evaluator.Scoped (final : Analyzer) (given : Evaluator) : Prop where
  expression : ∀ {static : Static} {env : Environment} {state : Interpreter}
    {point : Point} {node : Expr},
    final.Covers static (Analyzer.expression point node) →
    Agrees static env state →
    (scoping final).Runs (given.expression point node env)
      (Answers static node) state
  body : ∀ {static : Static} {level : NameMap Nat} {outer : Environment}
    {state : Interpreter} {point : Point} {node : Stmt},
    final.Covers static (Analyzer.statement .body point node) →
    Agrees static (level :: outer) state →
    (scoping final).Runs (given.body point node (level :: outer))
      (fun _ _ => True) state
  whileLoop : ∀ {static inner : Static} {env : Environment}
    {state : Interpreter} {point : Point} {test : Expr} {body : Stmt},
    final.Covers static (Analyzer.expression (0 :: point) test) →
    final.Covers inner (Analyzer.statement .body (1 :: point) body) →
    inner.types = static.types →
    inner.scopes = ⟨1 :: point, []⟩ :: static.scopes →
    Agrees static env state →
    (scoping final).Runs (given.whileLoop point test body env)
      (fun _ _ => True) state

/-- The root of a target is a known name, and its subscripts are covered. -/
def Analyzer.Roots (final : Analyzer) (static : Static) :
    Point → Expr → Prop
  | point, .located _ inner => final.Roots static point inner
  | _, .identifier name => static.scopes.resolve name = none →
      final.Reports .undefinedName
  | point, .property object _ => final.Roots static (0 :: point) object
  | point, .index object subscript =>
      final.Roots static (0 :: point) object ∧
        final.Covers static (Analyzer.expression (1 :: point) subscript)
  | _, _ => True

theorem Analyzer.Covers.roots :
    ∀ {point : Point} {node : Expr},
      final.Covers static (Analyzer.expression point node) →
      final.Roots static point node
  | _, .located _ _ => fun covers => (Analyzer.covers_located covers).roots
  | _, .identifier _ => fun covers =>
      Analyzer.covers_resolve (Analyzer.covers_identifier covers).2
  | _, .property _ _ => fun covers => (Analyzer.covers_property covers).2.roots
  | _, .index _ _ => fun covers =>
      ⟨(Analyzer.covers_index covers).2.1.roots,
        (Analyzer.covers_index covers).2.2⟩
  | _, .construct _ _ | _, .connection _ _ _ | _, .send _ _ _
  | _, .receive _ | _, .request _ _ _ | _, .integer _ | _, .float _
  | _, .string _ | _, .boolean _ | _, .null | _, .duration _ | _, .array _
  | _, .object _ | _, .unary _ _ | _, .binary _ _ _ | _, .assignment _ _
  | _, .call _ _ => fun _ => trivial

theorem Analyzer.roots_direct {name : String}
    (known : static.scopes.resolve name = none →
      final.Reports .undefinedName) :
    ∀ (point : Point) (node : Expr),
      node.unspanned.identifier? = some name → final.Roots static point node
  | point, .located _ inner => Analyzer.roots_direct known point inner
  | _, .identifier _ => fun direct => by
      cases direct
      exact known
  | _, .property _ _ | _, .index _ _ | _, .construct _ _
  | _, .connection _ _ _ | _, .send _ _ _ | _, .receive _
  | _, .request _ _ _ | _, .integer _ | _, .float _ | _, .string _
  | _, .boolean _ | _, .null | _, .duration _ | _, .array _ | _, .object _
  | _, .unary _ _ | _, .binary _ _ _ | _, .assignment _ _
  | _, .call _ _ => fun direct => nomatch direct

/-- A binding that may be written. -/
def MutableAt (state : Interpreter) (id : Nat) : Prop :=
  ∃ binding, state.bindings[id]? = some binding ∧ binding.mutable = true

theorem MutableAt.keep {before after : Interpreter} {id : Nat}
    (mutable : MutableAt before id) (kept : ArenasKept before after) :
    MutableAt after id := by
  obtain ⟨binding, found, writable⟩ := mutable
  obtain ⟨later, atLater, same⟩ := kept.bindings id binding found
  exact ⟨later, atLater, same.mutable.trans writable⟩

section Operations

theorem scoped_checkBindingWrite {id : Nat} (value : Value)
    (mutable : MutableAt state id) :
    (scoping final).Runs (do
      checkBinding point id value
      write id value) (fun _ _ => True) state := by
  refine (Leaf.checkBinding point id value).andThen fun _ next same => ?_
  obtain ⟨binding, found, writable⟩ := mutable.keep same.kept
  exact scoped_write found writable

theorem scoped_store {id : Nat} {selectors : List Selector} {value : Value}
    (mutable : MutableAt state id) :
    (scoping final).Runs (store point id selectors value)
      (fun _ _ => True) state := by
  refine scoped_ite (fun _ => scoped_checkBindingWrite value mutable)
    fun _ => ?_
  refine (Leaf.read point id).andThen fun root next same => ?_
  refine Leaf.types.andThen fun types later again => ?_
  refine (Leaf.attempt (set_plain types selectors root value)).andThen
    fun root last once => ?_
  exact scoped_checkBindingWrite root
    (mutable.keep ((same.trans again).trans once).kept)

theorem scoped_checkAssignable {id : Nat}
    (explained : ∀ binding, state.bindings[id]? = some binding →
      binding.mutable = false →
      final.Explains point .functionAssignment) :
    (scoping final).Runs (checkAssignable point id)
      (fun _ after => MutableAt after id) state := by
  intro fits
  cases found : state.bindings[id]? with
  | none =>
      have panics : (scoping final).Runs (Interp.stop .panic : Interp Unit)
          (fun _ after => MutableAt after id) state := scoped_panic
      have safe := panics fits
      simpa [wp, checkAssignable, Interp.binding, found, Interp.stop]
        using safe
  | some binding =>
      cases mutable : binding.mutable with
      | false =>
          have fails : (scoping final).Runs
              (Interp.fail point .functionAssignment : Interp Unit)
              (fun _ after => MutableAt after id) state :=
            scoped_fail (explained binding found mutable)
          have safe := fails fits
          simpa [wp, checkAssignable, Interp.binding, found, mutable]
            using safe
      | true =>
          by_cases own : id < state.capturedBindings
          · have fails : (scoping final).Runs
                (Interp.fail point .capturedAssignment : Interp Unit)
                (fun _ after => MutableAt after id) state :=
              scoped_fail trivial
            have safe := fails fits
            simpa [wp, checkAssignable, Interp.binding, found, mutable, own]
              using safe
          · have passes : checkAssignable point id state =
                .ret (.ok (), state) := by
              simp [checkAssignable, Interp.binding, found, mutable, own]
            exact runs_ret passes (fun _ => .refl state) (fun held => held)
              (fun _ => ⟨binding, found, mutable⟩) fits

theorem scoped_annotationType {annotated : Option TypeAnnotation}
    (fits : Agrees static env state) :
    (scoping final).Runs (annotationType annotated)
      (fun value after => value = Analyzer.annotationType static annotated ∧
        after = state) state :=
  runs_ret rfl (fun _ => .refl state) (fun held => held)
    fun _ => ⟨fits.annotation annotated, rfl⟩

/-- The parameters of a function are bound as they are declared. -/
theorem scoped_bindParameters {origin : Point} {outer : Environment}
    (single : ¬ final.Reports .duplicateDeclaration)
    {parameters : List Parameter} {arguments : List Value}
    {bound : NameMap Nat}
    (counted : arguments.length = parameters.length)
    (covers : final.Covers static
      (Analyzer.declareParameters origin parameters))
    (fits : Agrees static (bound :: outer) state) :
    (scoping final).Runs (bindParameters point parameters arguments bound)
      (fun bound after =>
        Agrees (static.parameterized parameters) (bound :: outer) after)
      state := by
  induction parameters generalizing static arguments bound state with
  | nil =>
      unfold bindParameters
      exact runs_pure fits
  | cons parameter parameters induction =>
      cases arguments with
      | nil => simp at counted
      | cons value arguments =>
          obtain ⟨first, rest⟩ := Analyzer.covers_declareParameters covers
          obtain ⟨scopes, declared⟩ := Analyzer.covers_declare single first
          refine (scoped_annotationType fits).bind
            fun annotated next _ _ held => ?_
          obtain ⟨rfl, rfl⟩ := held
          refine (Leaf.check point _ value).andThen fun _ next same => ?_
          have allocated : (scoping final).Runs
              (allocate ⟨Analyzer.annotationType static parameter.annotated,
                some value, true⟩)
              (fun id after =>
                Agrees (static.declared parameter.name (.parameter
                  (Analyzer.annotationType static parameter.annotated)))
                  (NameMap.insert bound parameter.name id :: outer) after)
              next := by
            have grown : ArenasKept next { next with
                bindings := next.bindings ++ [⟨Analyzer.annotationType static
                  parameter.annotated, some value, true⟩] } :=
              ⟨rfl, .append _ _ _, List.prefix_rfl⟩
            refine scoped_allocate (((fits.keep same.kept).keep
              grown).declare declared ?_)
            exact ⟨⟨Analyzer.annotationType static parameter.annotated,
              some value, true⟩, by simp, rfl, rfl⟩
          exact allocated.bind fun id later _ _ declared =>
            induction (by simpa using counted) rest declared

end Operations

section Calls

variable [Formatting] {self : Evaluator} (within : self.Scoped final)

omit [Formatting] in
theorem scoped_finishCall {function : Function} {flow : Flow} :
    (scoping final).Runs (finishCall point function flow)
      (fun _ _ => True) state := by
  cases flow with
  | normal =>
      have leaf : Leaf final (finishCall point function .normal) :=
        (Leaf.relocate (Leaf.check _ _ _)).bind fun _ => .pure _
      exact leaf.runs.mono fun _ _ _ _ _ => trivial
  | «break» => exact scoped_fail trivial
  | «continue» => exact scoped_fail trivial
  | «return» value => exact runs_pure trivial

omit [Formatting] in
theorem scoped_callBuiltin {builtin : Builtin} {arguments : List Value}
    (explained : arguments.length ≠ builtin.arity → ∀ name expected actual,
      final.Explains point (.argumentCount name expected actual)) :
    (scoping final).Runs (callBuiltin point builtin arguments)
      (fun _ _ => True) state := by
  have plain : ∀ {comp : Interp Value}, Leaf final comp →
      (scoping final).Runs comp (fun _ _ => True) state :=
    fun leaf => leaf.runs.mono fun _ _ _ _ _ => trivial
  unfold callBuiltin
  refine scoped_ite (fun different => scoped_fail (explained different _ _ _))
    fun _ => ?_
  split
  · exact plain .panic
  · apply plain
    unfold setTimeout
    split
    · exact .ite (fun _ => (Leaf.call _ _).bind fun _ => .pure _)
        fun _ => .fail trivial
    · exact .fail trivial
  · exact plain (.call _ _)
  · exact plain ((Leaf.call _ _).bind fun _ => .pure _)
  · exact plain ((Leaf.call _ _).bind fun _ => .pure _)
  · exact plain (.lift (pureBuiltin_plain _ _))

omit [Formatting] in
theorem scoped_function {id given : Nat}
    (explained : ∀ function, state.functions[id]? = some function →
      given ≠ function.parameters.length → ∀ name expected actual,
        final.Explains point (.argumentCount name expected actual)) :
    (scoping final).Runs (function point id given)
      (fun function after => after = state ∧
        state.functions[id]? = some function ∧
        given = function.parameters.length) state := by
  intro fits
  have fails : ∀ kind, final.Explains point kind →
      wp (scoping final).contract (fail point kind : Interp Function)
        ((scoping final).After state fun function after => after = state ∧
          state.functions[id]? = some function ∧
          given = function.parameters.length) state :=
    fun kind explained => scoped_fail explained fits
  by_cases deep : state.limits.callDepth ≤ state.callStack.length
  · have safe := fails .callDepth trivial
    simpa [wp, Interp.function, deep] using safe
  cases found : state.functions[id]? with
  | none =>
      have safe := fails .invalidFunctionHandle trivial
      simpa [wp, Interp.function, deep, found] using safe
  | some function =>
      by_cases counted : given = function.parameters.length
      · have passes : Interp.function point id given state =
            .ret (.ok function, state) := by
          simp [Interp.function, deep, found, counted]
        exact runs_ret passes (fun _ => .refl state) (fun held => held)
          (fun _ => ⟨rfl, rfl, counted⟩) fits
      · have safe := fails (.argumentCount function.name
          function.parameters.length given)
          (explained function found counted _ _ _)
        simpa [wp, Interp.function, deep, found, counted] using safe

include within

omit [Formatting] in
theorem scoped_callFunction
    (single : ¬ final.Reports .duplicateDeclaration) {id : Nat}
    {arguments : List Value}
    (explained : ∀ function, state.functions[id]? = some function →
      arguments.length ≠ function.parameters.length →
        ∀ name expected actual,
          final.Explains point (.argumentCount name expected actual)) :
    (scoping final).Runs (callFunction self point id arguments)
      (fun _ _ => True) state := by
  refine (scoped_function explained).bind fun function next _ fits held => ?_
  obtain ⟨rfl, found, counted⟩ := held
  obtain ⟨origin, annotated, closure, covers⟩ :=
    fits function (List.mem_of_getElem? found)
  obtain ⟨declared, body⟩ := Analyzer.covers_parameterized
    (fun analyzer => (Analyzer.statement_moves _ _ _ analyzer).gathers)
    covers.inScope.inFunction
  refine (scoped_bindParameters single counted declared
    (closure.enter function.point rfl rfl)).bind
    fun parameters next _ _ bound => ?_
  refine runs_reported ?_ fun _ _ _ held => settles_after held
  refine scoped_around ⟨rfl, rfl, rfl⟩ (fun _ => ⟨rfl, rfl, rfl⟩) ?_
    fun _ _ held => held
  refine Runs.bind (within.body body (bound.keep (SameArenas.kept ?_)))
    fun (flow, _) _ _ _ _ => scoped_finishCall
  exact ⟨rfl, rfl, rfl⟩

theorem scoped_callValue (single : ¬ final.Reports .duplicateDeclaration)
    {callee : Value} {arguments : List Value}
    (explained : ∀ arity returnType,
      callee.Callable state.functions arity returnType →
      arguments.length ≠ arity → ∀ name expected actual,
        final.Explains point (.argumentCount name expected actual)) :
    (scoping final).Runs (callValue self point callee arguments)
      (fun _ _ => True) state := by
  have other : ∀ name : String, (scoping final).Runs
      (fail point (.cannotCall name) : Interp Value) (fun _ _ => True)
      state := fun _ => scoped_fail trivial
  cases callee with
  | builtin builtin =>
      exact scoped_callBuiltin (explained builtin.arity none ⟨rfl, rfl⟩)
  | print =>
      have leaf : Leaf final (callValue self point .print arguments) :=
        (Leaf.print _ _).bind fun _ => .pure _
      exact leaf.runs.mono fun _ _ _ _ _ => trivial
  | function id =>
      refine scoped_callFunction within single fun function found => ?_
      exact explained _ function.returnType ⟨function, found, rfl, rfl⟩
  | _ => exact other _

end Calls

section Expressions

variable {self : Evaluator} (within : self.Scoped final)

theorem Leaf.connect (point : Point) (transport : Transport)
    (protocol : Option String) (address : Value) :
    Leaf final (connect point transport protocol address) := by
  unfold NetLang.connect
  split
  · refine .ite (fun _ => .fail trivial) fun _ => ?_
    refine (Leaf.lift (configuredAddress_plain _ _)).bind fun _ => ?_
    cases transport with
    | udp => exact .call _ _
    | tcp => exact .call _ _
  · exact .call _ _
  · exact .fail trivial

include within

theorem scoped_expressions {i : Nat} {values : List Expr}
    (covers : final.Covers static (Analyzer.expressions point i values))
    (fits : Agrees static env state) :
    (scoping final).Runs (expressions self point env i values)
      (fun results _ => results.length = values.length) state := by
  induction values generalizing i state with
  | nil => exact runs_pure rfl
  | cons value rest induction =>
      obtain ⟨first, others⟩ := Analyzer.covers_expressions covers
      refine (within.expression first fits).bind fun value next kept _ _ => ?_
      refine (induction others (fits.keep kept)).bind
        fun values _ _ _ length => runs_pure ?_
      simp [length]

theorem scoped_objectFields {i : Nat} {fields : List (String × Expr)}
    {values : SortedMap Value}
    (covers : final.Covers static (Analyzer.fieldValues point i fields))
    (fits : Agrees static env state) :
    (scoping final).Runs (objectFields self point env i fields values)
      (fun _ _ => True) state := by
  induction fields generalizing i values state with
  | nil => exact runs_pure trivial
  | cons field rest induction =>
      obtain ⟨key, value⟩ := field
      obtain ⟨first, others⟩ := Analyzer.covers_fieldValues covers
      exact (within.expression first fits).bind fun _ _ kept _ _ =>
        induction others (fits.keep kept)

theorem scoped_constructorFields {name : String}
    {definition : Option (List TypeField)} {declared : List TypeField}
    {i : Nat} {fields : List (String × Expr)} {seen : List String}
    {values : SortedMap Value}
    (covers : final.Covers static
      (Analyzer.constructorFields point name definition i fields seen))
    (fits : Agrees static env state) :
    (scoping final).Runs
      (constructorFields self point env declared i fields values)
      (fun _ _ => True) state := by
  induction fields generalizing i values state seen with
  | nil => exact runs_pure trivial
  | cons field rest induction =>
      obtain ⟨key, value⟩ := field
      obtain ⟨first, others⟩ := Analyzer.covers_constructorFields covers
      refine (within.expression first fits).bind fun value next kept _ _ => ?_
      refine Leaf.types.andThen fun types later same => ?_
      refine (Leaf.relocate (Leaf.check _ _ _)).andThen fun _ last again => ?_
      exact induction others
        ((fits.keep kept).keep (same.trans again).kept)

omit within in
/-- A name that the analyzer takes for a function holds one. -/
theorem scoped_readFunction {name : String} {id : Nat}
    (fits : Agrees static env state)
    (resolved : env.resolve name = some id) :
    (scoping final).Runs (read point id)
      (Answers static (.identifier name)) state := by
  cases found : state.bindings[id]? with
  | none =>
      intro held
      have panics : (scoping final).Runs (Interp.stop .panic : Interp Value)
          (Answers static (.identifier name)) state := scoped_panic
      have safe := panics held
      simpa [wp, Interp.read, Interp.binding, found, Interp.stop] using safe
  | some binding =>
      cases stored : binding.value with
      | none =>
          intro held
          have fails : (scoping final).Runs
              (Interp.fail point .uninitialized : Interp Value)
              (Answers static (.identifier name)) state :=
            scoped_fail trivial
          have safe := fails held
          simpa [wp, Interp.read, Interp.binding, found, stored] using safe
      | some value =>
          have reads : read point id state = .ret (.ok value, state) := by
            simp [Interp.read, Interp.binding, found, stored]
          refine runs_ret reads (fun _ => .refl state) (fun held => held)
            fun _ => ?_
          intro other arity parameters returnType same known
          cases same
          have alike := fits.resolve name
          rw [known, resolved] at alike
          obtain ⟨bound, atBound, binds⟩ :
              Symbol.At state (.function arity parameters returnType) id := by
            simpa using alike
          cases found.symm.trans atBound
          obtain ⟨_, callable, held, calls⟩ := binds
          cases stored.symm.trans held
          exact calls

theorem scoped_construct {name : String} {fields : List (String × Expr)}
    (covers : final.Covers static
      (Analyzer.expression point (.construct name fields)))
    (fits : Agrees static env state) :
    (scoping final).Runs (construct self point env name fields)
      (fun _ _ => True) state := by
  obtain ⟨_, definition, inside⟩ := Analyzer.covers_construct covers
  refine Leaf.types.andThen fun types next same => ?_
  split
  · refine (Leaf.attempt (get_failsPlainly _)).andThen
      fun definition later again => ?_
    exact (scoped_constructorFields within inside
      (fits.keep (same.trans again).kept)).bind
        fun _ _ _ _ _ => runs_pure trivial
  · exact scoped_fail trivial

theorem scoped_sendDestination {destination : Option Expr}
    (covers : final.Covers static
      (Analyzer.optional (2 :: point) destination))
    (fits : Agrees static env state) :
    (scoping final).Runs (sendDestination self point env destination)
      (fun _ _ => True) state := by
  cases destination with
  | none => exact runs_pure trivial
  | some destination =>
      refine (within.expression (Analyzer.covers_optional covers) fits).bind
        fun value _ _ _ _ => ?_
      split
      · exact runs_pure trivial
      · exact scoped_fail trivial

theorem scoped_request {method : HttpMethod} {config : Option Expr}
    {url : Value}
    (covers : final.Covers static (Analyzer.optional (1 :: point) config))
    (fits : Agrees static env state) :
    (scoping final).Runs (request self point env method config url)
      (fun _ _ => True) state := by
  have calls : ∀ (text : String) (value : Value) (state : Interpreter),
      (scoping final).Runs (call point (.request method text value))
        (fun _ _ => True) state := fun _ _ _ =>
    (Leaf.call _ _).runs.mono fun _ _ _ _ _ => trivial
  unfold request
  split
  · cases config with
    | some config =>
        exact (within.expression (Analyzer.covers_optional covers) fits).bind
          fun _ _ _ _ _ => calls _ _ _
    | none => exact calls _ _ _
  · exact scoped_fail trivial

theorem scoped_logical {op : BinaryOp} {right : Expr} {left : Value}
    (covers : final.Covers static (Analyzer.expression (1 :: point) right))
    (fits : Agrees static env state) :
    (scoping final).Runs (logical self point env op right left)
      (fun _ _ => True) state := by
  refine (Leaf.lift (asBoolean_plain left)).andThen fun first next same => ?_
  refine scoped_ite (fun _ => runs_pure trivial) fun _ => ?_
  refine (within.expression covers (fits.keep same.kept)).bind
    fun value _ _ _ _ => ?_
  exact (Leaf.lift (asBoolean_plain value)).andThen
    fun _ _ _ => runs_pure trivial

/-- A target leads to the slot of the name of its root. -/
theorem scoped_target :
    ∀ {point : Point} {node : Expr} {state : Interpreter},
      final.Roots static point node → Agrees static env state →
      (scoping final).Runs (target self env point node)
        (fun outcome _ => ∃ name, Analyzer.rootOf node = .identifier name ∧
          env.resolve name = some outcome.1) state
  | point, .located _ inner, state => fun roots fits => by
      unfold target
      refine scoped_withSpan (scoped_target roots ?_) fun _ _ held => held
      exact fits.keep (SameArenas.kept ⟨rfl, rfl, rfl⟩)
  | point, .identifier name, state => fun known fits => by
      unfold target
      refine (Leaf.tick point).andThen fun _ next same => ?_
      refine (scoped_resolve (fits.keep same.kept) known).bind
        fun id _ _ _ held => runs_pure ?_
      exact ⟨name, rfl, held.2⟩
  | point, .property object name, state => fun roots fits => by
      unfold target
      refine (Leaf.tick point).andThen fun _ next same => ?_
      have inner : final.Roots static (0 :: point) object := roots
      refine (scoped_target inner (fits.keep same.kept)).bind
        fun (_, _) _ _ _ held => ?_
      exact runs_pure held
  | point, .index object subscript, state => fun roots fits => by
      unfold target
      refine (Leaf.tick point).andThen fun _ next same => ?_
      have here := fits.keep same.kept
      refine (scoped_target roots.1 here).bind
        fun (_, _) last kept _ held => ?_
      refine (within.expression roots.2 (here.keep kept)).bind
        fun _ _ _ _ _ => ?_
      exact runs_pure held
  | point, .construct _ _, _ | point, .connection _ _ _, _
  | point, .send _ _ _, _ | point, .receive _, _ | point, .request _ _ _, _
  | point, .integer _, _ | point, .float _, _ | point, .string _, _
  | point, .boolean _, _ | point, .null, _ | point, .duration _, _
  | point, .array _, _ | point, .object _, _ | point, .unary _ _, _
  | point, .binary _ _ _, _ | point, .assignment _ _, _
  | point, .call _ _, _ => fun _ _ =>
      (Leaf.tick point).andThen fun _ _ _ => scoped_fail trivial

omit within in
/-- An assignment to a binding that is not mutable is explained. -/
theorem functionAssignment_explained {target value : Expr} {name : String}
    {id : Nat} {binding : Binding}
    (covers : final.Covers static
      (Analyzer.expression point (.assignment target value)))
    (fits : Agrees static env state)
    (root : Analyzer.rootOf target = .identifier name)
    (resolved : env.resolve name = some id)
    (found : state.bindings[id]? = some binding)
    (immutable : binding.mutable = false) :
    final.Explains point .functionAssignment := by
  obtain ⟨visited, direct, _, _⟩ := Analyzer.covers_assignment covers
  have alike := fits.resolve name
  rw [resolved] at alike
  have unchangeable : Analyzer.isImmutable static name = true := by
    cases known : static.scopes.resolve name with
    | none => simp [known] at alike
    | some symbol =>
        rw [known] at alike
        obtain ⟨other, same, binds⟩ : symbol.At state id := by
          simpa using alike
        cases found.symm.trans same
        unfold Analyzer.isImmutable
        rw [known]
        cases symbol with
        | function arity parameters returnType => rfl
        | builtin => rfl
        | _ => exact absurd (binds.1.symm.trans immutable) (by simp)
  cases shape : target.unspanned.identifier? with
  | some direct' =>
      have same : direct' = name := by
        have bare : target.unspanned = .identifier direct' := by
          cases inner : target.unspanned <;>
            simp_all [Expr.identifier?]
        have rooted : ∀ node : Expr, node.unspanned = .identifier direct' →
            Analyzer.rootOf node = .identifier direct' := by
          intro node
          fun_induction Analyzer.rootOf node with
          | case1 span inner induction => exact induction
          | case2 object key induction => exact nofun
          | case3 object key induction => exact nofun
          | case4 node other _ _ =>
              intro same
              cases node <;> simp_all [Expr.unspanned]
        have both := (rooted target bare).symm.trans root
        exact Expr.identifier.inj both
      subst same
      exact .inl (Analyzer.covers_checkMutable (direct _ shape).2
        unchangeable)
  | none => exact .inr ⟨static, target, value, name, visited, shape, root,
      unchangeable⟩

theorem scoped_assignment [Formatting] {target value : Expr}
    (covers : final.Covers static
      (Analyzer.expression point (.assignment target value)))
    (fits : Agrees static env state) :
    (scoping final).Runs (expressionInner self point env
      (.assignment target value)) (fun _ _ => True) state := by
  obtain ⟨_, direct, path, assigned⟩ := Analyzer.covers_assignment covers
  have roots : final.Roots static (0 :: point) target := by
    cases shape : target.unspanned.identifier? with
    | some name =>
        have known := Analyzer.covers_resolve (direct name shape).1
        exact Analyzer.roots_direct known _ _ shape
    | none => exact (path shape).roots
  refine (scoped_target within roots fits).bind
    fun (id, selectors) next kept _ held => ?_
  obtain ⟨name, root, resolved⟩ := held
  refine runs_reported ?_ fun _ _ _ held => settles_after held
  have here := fits.keep kept
  refine (scoped_checkAssignable fun binding found immutable => ?_).bind
    fun _ later again _ mutable => ?_
  · exact functionAssignment_explained covers here root resolved found
      immutable
  refine (within.expression assigned (here.keep again)).bind
    fun value last more _ _ => ?_
  refine scoped_observe trivial ?_
  exact (scoped_store (mutable.keep more)).bind
    fun _ _ _ _ _ => runs_pure trivial

omit within in
/-- A call with the wrong number of arguments is explained. -/
theorem argumentCount_explained {callee : Expr} {arguments : List Expr}
    {value : Value} {arity : Nat} {returnType : Option ResolvedType}
    (covers : final.Covers static
      (Analyzer.expression point (.call callee arguments)))
    (answers : Answers static callee value state)
    (callable : value.Callable state.functions arity returnType)
    (different : arguments.length ≠ arity) (name : String)
    (expected actual : Nat) :
    final.Explains point (.argumentCount name expected actual) := by
  obtain ⟨visited, _, checked, _⟩ := Analyzer.covers_call covers
  cases known : Analyzer.calleeArity static callee.unspanned with
  | none => exact .inr (.inr ⟨static, callee, arguments, visited, known⟩)
  | some entry =>
      obtain ⟨calleeName, count⟩ := entry
      have same : arity = count := by
        cases shape : callee.unspanned with
        | identifier found =>
            cases resolved : static.scopes.resolve found with
            | none => simp [Analyzer.calleeArity, shape, resolved] at known
            | some symbol =>
                cases symbol with
                | function given parameters result =>
                    have other := answers found given parameters result shape
                      resolved
                    simp only [Analyzer.calleeArity, shape, resolved,
                      Option.some.injEq, Prod.mk.injEq] at known
                    exact (callable.unique other).trans known.2
                | _ => simp [Analyzer.calleeArity, shape, resolved] at known
        | _ => simp [Analyzer.calleeArity, shape] at known
      subst same
      exact .inl (Analyzer.covers_checkArity checked known
        (Ne.symm different))

variable [Formatting]

/-- What is inside of a node; only an identifier has an answer. -/
theorem scoped_expressionInner
    (single : ¬ final.Reports .duplicateDeclaration) {node : Expr}
    (covers : final.Covers static (Analyzer.expression point node))
    (fits : Agrees static env state) :
    (scoping final).Runs (expressionInner self point env node)
      (Answers static node) state := by
  have quiet : ∀ {comp : Interp Value}, (∀ name, node ≠ .identifier name) →
      node.unspanned = node →
      (scoping final).Runs comp (fun _ _ => True) state →
      (scoping final).Runs comp (Answers static node) state := by
    intro comp other bare runs
    refine runs.mono fun value after _ _ _ => ?_
    intro name arity parameters returnType same
    exact absurd (bare.symm.trans same) (other name)
  have leaves : ∀ {comp : Interp Value}, Leaf final comp →
      ∀ state, (scoping final).Runs comp (fun _ _ => True) state :=
    fun leaf _ => leaf.runs.mono fun _ _ _ _ _ => trivial
  cases node with
  | located span inner => exact scoped_panic
  | construct name fields =>
      exact quiet nofun rfl (scoped_construct within covers fits)
  | connection transport address protocol =>
      obtain ⟨_, addressed⟩ := Analyzer.covers_connection covers
      exact quiet nofun rfl ((within.expression addressed fits).bind
        fun _ _ _ _ _ => leaves (.connect _ _ _ _) _)
  | send connection data destination =>
      obtain ⟨_, first, second, third⟩ := Analyzer.covers_send covers
      refine quiet nofun rfl ((within.expression first fits).bind
        fun _ next kept _ _ => ?_)
      refine (within.expression second (fits.keep kept)).bind
        fun _ last again _ _ => ?_
      exact (scoped_sendDestination within third
        ((fits.keep kept).keep again)).bind
        fun _ _ _ _ _ => leaves (.call _ _) _
  | receive connection =>
      obtain ⟨_, first⟩ := Analyzer.covers_receive covers
      exact quiet nofun rfl ((within.expression first fits).bind
        fun _ _ _ _ _ => leaves (.call _ _) _)
  | request method url config =>
      obtain ⟨_, first, second⟩ := Analyzer.covers_request covers
      exact quiet nofun rfl ((within.expression first fits).bind
        fun _ _ kept _ _ => scoped_request within second (fits.keep kept))
  | identifier name =>
      obtain ⟨_, known⟩ := Analyzer.covers_identifier covers
      refine (scoped_resolve fits (Analyzer.covers_resolve known)).bind
        fun id next _ _ held => ?_
      obtain ⟨rfl, resolved⟩ := held
      exact scoped_readFunction fits resolved
  | array values =>
      obtain ⟨_, inside⟩ := Analyzer.covers_array covers
      exact quiet nofun rfl ((scoped_expressions within inside fits).bind
        fun _ _ _ _ _ => runs_pure trivial)
  | object fields =>
      obtain ⟨_, inside⟩ := Analyzer.covers_object covers
      exact quiet nofun rfl ((scoped_objectFields within inside fits).bind
        fun _ _ _ _ _ => runs_pure trivial)
  | unary operator operand =>
      obtain ⟨_, inside⟩ := Analyzer.covers_unary covers
      exact quiet nofun rfl ((within.expression inside fits).bind
        fun _ _ _ _ _ => leaves (.lift (unary_plain _ _)) _)
  | binary left op right =>
      obtain ⟨_, first, second⟩ := Analyzer.covers_binary covers
      refine quiet nofun rfl ((within.expression first fits).bind
        fun _ next kept _ _ => scoped_ite (fun _ => ?_) fun _ => ?_)
      · exact scoped_logical within second (fits.keep kept)
      · exact (within.expression second (fits.keep kept)).bind
          fun _ _ _ _ _ => leaves (.attempt (binary_plain _ _ _)) _
  | assignment target value =>
      exact quiet nofun rfl (scoped_assignment within covers fits)
  | call callee arguments =>
      obtain ⟨_, first, _, second⟩ := Analyzer.covers_call covers
      refine quiet nofun rfl ((within.expression first fits).bind
        fun value next kept _ answers => ?_)
      refine (scoped_expressions within second (fits.keep kept)).bind
        fun values last again _ length => ?_
      refine scoped_callValue within single fun arity returnType callable
        different => ?_
      have later : Answers static callee value last :=
        fun name arity parameters returnType shape resolved =>
          (answers name arity parameters returnType shape resolved).keep
            again.functions
      exact argumentCount_explained covers later callable
        (length ▸ different)
  | property object name =>
      obtain ⟨_, inside⟩ := Analyzer.covers_property covers
      exact quiet nofun rfl ((within.expression inside fits).bind
        fun _ _ _ _ _ => leaves (.lift (get_plain _ _)) _)
  | index object subscript =>
      obtain ⟨_, first, second⟩ := Analyzer.covers_index covers
      refine quiet nofun rfl ((within.expression first fits).bind
        fun _ next kept _ _ => ?_)
      exact (within.expression second (fits.keep kept)).bind
        fun _ _ _ _ _ => leaves (.lift (index_plain _ _)) _
  | _ => exact quiet nofun rfl (runs_pure trivial)

theorem scoped_expressionNode
    (single : ¬ final.Reports .duplicateDeclaration) {node : Expr}
    (bare : ∀ span inner, node ≠ .located span inner)
    (covers : final.Covers static (Analyzer.expression point node))
    (fits : Agrees static env state) :
    (scoping final).Runs (expressionNode self point env node)
      (Answers static node) state := by
  refine runs_observed (fun _ => ?_) ?_ fun _ _ _ held => settles_after held
  · exact ⟨static, Analyzer.covers_visited bare covers, fits⟩
  · refine (Leaf.tick point).andThen fun _ next same => ?_
    refine scoped_nested ?_ fun _ _ held => held
    refine scoped_expressionInner within single covers ?_
    exact (fits.keep same.kept).keep (SameArenas.kept ⟨rfl, rfl, rfl⟩)

theorem scoped_expression (single : ¬ final.Reports .duplicateDeclaration) :
    ∀ {node : Expr} {state : Interpreter},
      final.Covers static (Analyzer.expression point node) →
      Agrees static env state →
      (scoping final).Runs (expression self point node env)
        (Answers static node) state := by
  intro node
  fun_induction expression self point node env with
  | case1 span inner env induction =>
      intro state covers fits
      refine scoped_withSpan (induction (Analyzer.covers_located covers) ?_)
        fun _ _ held => held
      exact fits.keep (SameArenas.kept ⟨rfl, rfl, rfl⟩)
  | case2 node env bare =>
      intro state covers fits
      exact scoped_expressionNode within single bare covers fits

end Expressions

end NetLang
