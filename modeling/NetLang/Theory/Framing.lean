import NetLang.Theory.Hoisting
import NetLang.Theory.Isolation

/-!
# The frame of the evaluator

One lemma for each function of the interpreter, and an induction on fuel.
-/

namespace NetLang

open Interp Discipline

variable {α β : Type} {threads : Prop}

/-- A binding that the current interpreter may write. -/
structure Writable (state : Interpreter) (id : Nat) : Prop where
  own : state.capturedBindings ≤ id
  mutable : ∀ binding, state.bindings[id]? = some binding →
    binding.mutable = true
  inside : id < state.bindings.length

theorem Writable.frame {before after : Interpreter} {id : Nat}
    (writable : Writable before id) (frame : Frame before after) :
    Writable after id := by
  refine ⟨frame.capturedBindings ▸ writable.own, ?_,
    writable.inside.trans_le frame.bindings.length_le⟩
  intro binding found
  obtain ⟨kept, atKept, same⟩ := frame.bindings id _
    (List.getElem?_eq_getElem writable.inside)
  cases found.symm.trans atKept
  exact same.mutable.trans
    (writable.mutable _ (List.getElem?_eq_getElem writable.inside))

section Arenas

theorem runs_allocate {post : Nat → Interpreter → Prop}
    {state : Interpreter} {binding : Binding}
    (holds : Ready threads state → post state.bindings.length
      { state with bindings := state.bindings ++ [binding] }) :
    (framing threads).Runs (allocate binding) post state := by
  have frame : Frame state
      { state with bindings := state.bindings ++ [binding] } :=
    { Frame.refl state with bindings := .append _ _ _ }
  exact runs_ret rfl (fun _ => frame) (fun ready => ready.frame frame) holds

theorem Frames.allocate (binding : Binding) :
    Frames threads (Interp.allocate binding) :=
  fun _ => runs_allocate fun _ => trivial

theorem Frames.binding (id : Nat) :
    Frames threads (Interp.binding id) := by
  intro state
  cases found : state.bindings[id]? with
  | none =>
      intro ready
      have panics : wp (framing threads).contract
          (Interp.stop .panic : Interp Binding)
          ((framing threads).After state fun _ _ => True) state :=
        Frames.stop .panic state ready
      simpa [wp, Interp.binding, found, Interp.stop] using panics
  | some binding =>
      have reads : Interp.binding id state = .ret (.ok binding, state) := by
        simp [Interp.binding, found]
      exact runs_ret reads (fun _ => .refl state)
        (fun ready => ready) fun _ => trivial

theorem Frames.read (point : Point) (id : Nat) :
    Frames threads (Interp.read point id) := by
  refine (Frames.binding id).bind fun binding => ?_
  cases binding.value with
  | some value => exact .pure value
  | none => exact .fail _ _

theorem Frames.check (point : Point) (expected : Option ResolvedType)
    (value : Value) : Frames threads (Interp.check point expected value) :=
  fun state => Frames.attempt point
    (state.types.checkValueType expected value) state

theorem Frames.checkBinding (point : Point) (id : Nat) (value : Value) :
    Frames threads (Interp.checkBinding point id value) :=
  (Frames.binding id).bind fun _ => .check _ _ _

theorem Frames.checkReturn (point : Point) (value : Value) :
    Frames threads (Interp.checkReturn point value) :=
  fun state => Frames.check point state.returnType value state

theorem Frames.resolve (point : Point) (env : Environment)
    (name : String) : Frames threads (Interp.resolve point env name) := by
  unfold Interp.resolve
  cases env.resolve name with
  | some id => exact .pure id
  | none => exact .fail _ _

theorem Frames.annotationType (annotated : Option TypeAnnotation) :
    Frames threads (Interp.annotationType annotated) :=
  fun state => runs_ret rfl (fun _ => .refl state) id fun _ => trivial

theorem runs_write {state : Interpreter} {id : Nat} {value : Value}
    (writable : Writable state id) :
    (framing threads).Runs (write id value) (fun _ _ => True) state := by
  have frame : Frame state (written state id value) := by
    refine { Frame.refl state with bindings := .modify writable.own ?_ }
    intro binding found immutable
    rw [writable.mutable binding found] at immutable
    cases immutable
  exact runs_writeSlot (fun _ _ => frame) (fun ready _ => ready.frame frame)
    (fun _ _ => trivial) fun _ => trivial

theorem Frames.types : Frames threads Interp.types :=
  fun state => runs_ret rfl (fun _ => .refl state) (fun ready => ready)
    fun _ => trivial

theorem Frames.location : Frames threads Interp.location :=
  fun state => runs_ret rfl (fun _ => .refl state) (fun ready => ready)
    fun _ => trivial

theorem runs_checkAssignable (point : Point) (id : Nat)
    (state : Interpreter) :
    (framing threads).Runs (checkAssignable point id)
      (fun _ after => Writable after id) state := by
  intro ready
  cases found : state.bindings[id]? with
  | none =>
      have panics : wp (framing threads).contract
          (Interp.stop .panic : Interp Unit)
          ((framing threads).After state fun _ after => Writable after id)
          state := runs_stop trivial ready
      simpa [wp, checkAssignable, Interp.binding, found, Interp.stop]
        using panics
  | some binding =>
      have fails : ∀ kind, wp (framing threads).contract
          (Interp.fail point kind : Interp Unit)
          ((framing threads).After state fun _ after => Writable after id)
          state := fun _ => runs_fail trivial ready
      by_cases immutable : binding.mutable = false
      · have guarded := fails .functionAssignment
        simpa [wp, checkAssignable, Interp.binding, found, immutable]
          using guarded
      · by_cases own : id < state.capturedBindings
        · have guarded := fails .capturedAssignment
          simpa [wp, checkAssignable, Interp.binding, found, immutable, own]
            using guarded
        · have writable : Writable state id := by
            refine ⟨by omega, ?_, (List.getElem?_eq_some_iff.mp found).1⟩
            intro other same
            cases found.symm.trans same
            simpa using immutable
          have passes : checkAssignable point id state =
              .ret (.ok (), state) := by
            simp [checkAssignable, Interp.binding, found, immutable, own]
          exact runs_ret passes (fun _ => .refl state) (fun ready => ready)
            (fun _ => writable) ready

theorem Frames.function (point : Point) (id given : Nat) :
    Frames threads (Interp.function point id given) := by
  intro state ready
  have fails : ∀ kind, wp (framing threads).contract
      (Interp.fail point kind : Interp Function)
      ((framing threads).After state fun _ _ => True) state :=
    fun _ => runs_fail trivial ready
  unfold wp Interp.function
  split
  · exact fails _
  · split
    · exact fails _
    · split
      · exact fails _
      · exact runs_pure trivial ready

theorem Frames.declareIn (env : Environment) (name : String) (id : Nat) :
    Frames threads (NetLang.declareIn env name id) := by
  unfold NetLang.declareIn
  cases env.declare name id with
  | some env => exact .pure env
  | none => exact .stop _

theorem Frames.slotOf (slot : Option Nat) :
    Frames threads (NetLang.slotOf slot) := by
  cases slot with
  | some id => exact .pure id
  | none => exact .stop _

/-- Hoisting has the frame, and the slots it reserves may be written. -/
theorem Interpreter.hoist_frame (state : Interpreter) (point : Point)
    (list : List Stmt) (scope : NameMap Nat) (outer : Environment) :
    Frame state (state.hoist point list scope outer) :=
  { Frame.refl state with
    bindings := .append _ _ _
    functions := List.prefix_append _ _ }

end Arenas

/-- What the fuel induction carries. -/
structure Evaluator.Framed (given : Evaluator) : Prop where
  expression : ∀ threads point expression env,
    Frames threads (given.expression point expression env)
  body : ∀ threads point body scope outer,
    Frames threads (given.body point body (scope :: outer))
  whileLoop : ∀ threads point test body env,
    Frames threads (given.whileLoop point test body env)

section Expressions

variable {self : Evaluator} (framed : self.Framed)
include framed

theorem frames_expressions (point : Point) (env : Environment) (i : Nat)
    (values : List Expr) :
    Frames threads (expressions self point env i values) := by
  induction values generalizing i with
  | nil => exact .pure _
  | cons value rest induction =>
      exact (framed.expression _ _ _ _).bind fun _ =>
        (induction _).bind fun _ => .pure _

theorem frames_objectFields (point : Point) (env : Environment) (i : Nat)
    (fields : List (String × Expr)) (values : SortedMap Value) :
    Frames threads (objectFields self point env i fields values) := by
  induction fields generalizing i values with
  | nil => exact .pure _
  | cons field rest induction =>
      exact (framed.expression _ _ _ _).bind fun _ => induction _ _

theorem frames_constructorFields (point : Point) (env : Environment)
    (definition : List TypeField) (i : Nat) (fields : List (String × Expr))
    (values : SortedMap Value) :
    Frames threads
      (constructorFields self point env definition i fields values) := by
  induction fields generalizing i values with
  | nil => exact .pure _
  | cons field rest induction =>
      exact (framed.expression _ _ _ _).bind fun _ => Frames.types.bind fun _ =>
        (Frames.check _ _ _).relocate.bind fun _ => induction _ _

theorem frames_construct (point : Point) (env : Environment)
    (name : String) (fields : List (String × Expr)) :
    Frames threads (construct self point env name fields) := by
  refine Frames.types.bind fun types => ?_
  split
  · exact (Frames.attempt _ _).bind fun _ =>
      (frames_constructorFields framed _ _ _ _ _ _).bind fun _ => .pure _
  · exact .fail _ _

omit framed in
theorem frames_connect (point : Point) (transport : Transport)
    (protocol : Option String) (address : Value) :
    Frames threads (connect point transport protocol address) := by
  unfold connect
  split
  · refine .ite (.fail _ _) ((Frames.lift _ _).bind fun _ => ?_)
    unfold openConfigured
    cases transport <;> exact .call _ _
  · exact .call _ _
  · exact .fail _ _

theorem frames_sendDestination (point : Point) (env : Environment)
    (destination : Option Expr) :
    Frames threads (sendDestination self point env destination) := by
  cases destination with
  | none => exact .pure _
  | some destination =>
      refine (framed.expression _ _ _ _).bind fun value => ?_
      split
      · exact .pure _
      · exact .fail _ _

theorem frames_request (point : Point) (env : Environment)
    (method : HttpMethod) (config : Option Expr) (url : Value) :
    Frames threads (request self point env method config url) := by
  unfold request
  split
  · cases config with
    | some config =>
        exact (framed.expression _ _ _ _).bind fun _ => .call _ _
    | none => exact (Frames.pure _).bind fun _ => .call _ _
  · exact .fail _ _

theorem frames_logical (point : Point) (env : Environment) (op : BinaryOp)
    (right : Expr) (left : Value) :
    Frames threads (logical self point env op right left) := by
  refine (Frames.lift _ _).bind fun value => .ite (.pure _) ?_
  exact (framed.expression _ _ _ _).bind fun _ =>
    (Frames.lift _ _).bind fun _ => .pure _

theorem frames_target (env : Environment) :
    ∀ point expression, Frames threads (target self env point expression)
  | point, .located _ inner => (frames_target env point inner).withSpan
  | point, .identifier _ =>
      (Frames.tick point).bind fun _ =>
        (Frames.resolve _ _ _).bind fun _ => .pure _
  | point, .property object _ =>
      (Frames.tick point).bind fun _ =>
        (frames_target env _ object).bind fun _ => .pure _
  | point, .index object _ =>
      (Frames.tick point).bind fun _ =>
        (frames_target env _ object).bind fun _ =>
          (framed.expression _ _ _ _).bind fun _ => .pure _
  | point, .construct _ _ | point, .connection _ _ _ | point, .send _ _ _
  | point, .receive _ | point, .request _ _ _ | point, .integer _
  | point, .float _ | point, .string _ | point, .boolean _ | point, .null
  | point, .duration _ | point, .array _ | point, .object _
  | point, .unary _ _ | point, .binary _ _ _ | point, .assignment _ _
  | point, .call _ _ => (Frames.tick point).bind fun _ => .fail _ _

omit framed in
theorem runs_store {point : Point} {id : Nat} {selectors : List Selector}
    {value : Value} {state : Interpreter} (writable : Writable state id) :
    (framing threads).Runs (store point id selectors value)
      (fun _ _ => True) state := by
  have checked : ∀ (value : Value) (state : Interpreter),
      Writable state id → (framing threads).Runs (do
        checkBinding point id value
        write id value) (fun _ _ => True) state := by
    intro value state writable
    exact (Frames.checkBinding point id value state).bind
      fun _ _ frame _ _ => runs_write (writable.frame frame)
  unfold store
  split
  · exact checked value state writable
  · refine (Frames.read point id state).bind fun root next frame _ _ => ?_
    refine (Frames.types next).bind fun types later same _ _ => ?_
    refine (Frames.attempt point (root.set types selectors value)
      later).bind fun root last again _ _ => ?_
    exact checked _ last (writable.frame ((frame.trans same).trans again))

/-- The guard of an assignment is what keeps captured bindings as they are. -/
theorem frames_assign (point : Point) (env : Environment)
    (target value : Expr) (id : Nat) (selectors : List Selector) :
    Frames threads (assign self point env target value id selectors) := by
  refine Frames.reported ?_ fun _ _ _ isolated frame => ⟨isolated, frame⟩
  intro state
  refine (runs_checkAssignable point id state).bind
    fun _ next _ _ writable => ?_
  refine (framed.expression _ _ _ _ _).bind fun value later frame _ _ => ?_
  have shows : Frames threads
      (observe (.storing point id selectors value)) :=
    .observe fun _ isolated => isolated
  refine (shows later).bind fun _ last shown _ _ => ?_
  exact (runs_store (writable.frame (frame.trans shown))).bind
    fun _ _ _ _ _ => runs_pure trivial

end Expressions

section Calls

variable [Formatting] {self : Evaluator} (framed : self.Framed)

omit [Formatting] in
theorem frames_callBuiltin (point : Point) (builtin : Builtin)
    (arguments : List Value) :
    Frames threads (callBuiltin point builtin arguments) := by
  unfold callBuiltin
  refine .ite (.fail _ _) ?_
  split
  · exact .stop _
  · unfold setTimeout
    split
    · exact .ite ((Frames.call _ _).bind fun _ => .pure _) (.fail _ _)
    · exact .fail _ _
  · exact .call _ _
  · exact (Frames.call _ _).bind fun _ => .pure _
  · exact (Frames.call _ _).bind fun _ => .pure _
  · exact .lift _ _

omit [Formatting] in
theorem frames_bindParameters (point : Point) (parameters : List Parameter)
    (arguments : List Value) (bound : NameMap Nat) :
    Frames threads (bindParameters point parameters arguments bound) := by
  induction parameters generalizing arguments bound with
  | nil =>
      unfold bindParameters
      exact .pure _
  | cons parameter parameters induction =>
      cases arguments with
      | nil => exact .pure _
      | cons value arguments =>
          exact (Frames.annotationType _).bind fun _ =>
            (Frames.check _ _ _).bind fun _ =>
              (Frames.allocate _).bind fun _ => induction _ _

omit [Formatting] in
theorem frames_finishCall (point : Point) (function : Function)
    (flow : Flow) : Frames threads (finishCall point function flow) := by
  cases flow with
  | normal =>
      exact (Frames.check _ _ _).relocate.bind fun _ => .pure _
  | «break» => exact .fail _ _
  | «continue» => exact .fail _ _
  | «return» value => exact .pure _

include framed

omit [Formatting] in
theorem frames_enterFunction (point : Point) (function : Function)
    (parameters : NameMap Nat) :
    Frames threads (enterFunction self point function parameters) := by
  refine Frames.reported ?_ fun _ _ _ isolated frame => ⟨isolated, frame⟩
  refine Frames.framed ?_
  exact (framed.body _ _ _ _ _).bind fun _ => frames_finishCall _ _ _

omit [Formatting] in
theorem frames_callFunction (point : Point) (id : Nat)
    (arguments : List Value) :
    Frames threads (callFunction self point id arguments) :=
  (Frames.function _ _ _).bind fun _ =>
    (frames_bindParameters _ _ _ _).bind fun _ =>
      frames_enterFunction framed _ _ _

theorem frames_callValue (point : Point) (callee : Value)
    (arguments : List Value) :
    Frames threads (callValue self point callee arguments) := by
  unfold callValue
  split
  · exact frames_callBuiltin _ _ _
  · exact (Calm.print _ _).frames.bind fun _ => .pure _
  · exact frames_callFunction framed _ _ _
  · exact .fail _ _

theorem frames_expressionInner (point : Point) (env : Environment)
    (node : Expr) :
    Frames threads (expressionInner self point env node) := by
  cases node with
  | construct name fields => exact frames_construct framed _ _ _ _
  | located span inner => exact .stop _
  | connection transport address protocol =>
      exact (framed.expression _ _ _ _).bind fun _ => frames_connect _ _ _ _
  | send connection data destination =>
      exact (framed.expression _ _ _ _).bind fun _ =>
        (framed.expression _ _ _ _).bind fun _ =>
          (frames_sendDestination framed _ _ _).bind fun _ => .call _ _
  | receive connection =>
      exact (framed.expression _ _ _ _).bind fun _ => .call _ _
  | request method url config =>
      exact (framed.expression _ _ _ _).bind fun _ =>
        frames_request framed _ _ _ _ _
  | integer value => exact .pure _
  | float value => exact .pure _
  | string value => exact .pure _
  | boolean value => exact .pure _
  | null => exact .pure _
  | duration value => exact .pure _
  | identifier name =>
      exact (Frames.resolve _ _ _).bind fun _ => .read _ _
  | array values =>
      exact (frames_expressions framed _ _ _ _).bind fun _ => .pure _
  | object fields =>
      exact (frames_objectFields framed _ _ _ _ _).bind fun _ => .pure _
  | unary operator operand =>
      exact (framed.expression _ _ _ _).bind fun _ => .lift _ _
  | binary left op right =>
      refine (framed.expression _ _ _ _).bind fun _ => .ite ?_ ?_
      · exact frames_logical framed _ _ _ _ _
      · exact (framed.expression _ _ _ _).bind fun _ => .attempt _ _
  | assignment left value =>
      exact (frames_target framed _ _ _).bind fun _ =>
        frames_assign framed _ _ _ _ _ _
  | call callee arguments =>
      exact (framed.expression _ _ _ _).bind fun _ =>
        (frames_expressions framed _ _ _ _).bind fun _ =>
          frames_callValue framed _ _ _
  | property object name =>
      exact (framed.expression _ _ _ _).bind fun _ => .lift _ _
  | index object subscript =>
      exact (framed.expression _ _ _ _).bind fun _ =>
        (framed.expression _ _ _ _).bind fun _ => .lift _ _

theorem frames_expressionNode (point : Point) (env : Environment)
    (node : Expr) :
    Frames threads (expressionNode self point env node) := by
  refine Frames.observed ?_ (fun _ isolated => isolated)
    fun _ _ _ isolated frame => ⟨isolated, frame⟩
  exact (Frames.tick _).bind fun _ =>
    (frames_expressionInner framed _ _ _).nested

theorem frames_expression (point : Point) (env : Environment)
    (node : Expr) : Frames threads (expression self point node env) :=
  expression_induction (fun _ _ inner => inner.withSpan)
    (frames_expressionNode framed point env) node

end Calls

section Parallel

variable {self : Evaluator} (framed : self.Framed)

theorem Worker.start_ready (worker : Worker) : Ready threads worker.start :=
  ⟨worker.start_isolated, le_rfl, fun outside => nomatch outside⟩

theorem frames_finishIteration (point : Point) (flow : Flow) :
    Frames threads (finishIteration point flow) := by
  cases flow with
  | normal => exact .pure _
  | «continue» => exact .pure _
  | «break» => exact .fail _ _
  | «return» value => exact .fail _ _

theorem Calm.runThreads (point : Point) (jobs : List Worker)
    (allowed : threads) : Calm threads (NetLang.runThreads point jobs) := by
  have joins : ∀ (jobs : List Worker) (ends : List WorkerEnd),
      Calm threads (joinOutcomes point jobs ends) := by
    intro jobs
    induction jobs with
    | nil =>
        intro ends
        exact .pure _
    | cons job jobs induction =>
        intro ends
        cases ends with
        | nil => exact .pure _
        | cons done ends =>
            refine Calm.bind ?_ fun _ => (induction ends).bind fun _ => .pure _
            cases done with
            | finished outcome => exact .pure _
            | panicked => exact .ret _ _ (fun _ => rfl) fun _ => .refl _
            | outOfFuel => exact .stop _
  have refuses : ∀ (started : Nat) (refusal : Option String),
      Calm threads (refusedOutcome point jobs started refusal) := by
    intro started refusal
    cases refusal with
    | none => exact .pure _
    | some reason => exact .ret _ _ (fun _ => rfl) fun _ => .refl _
  have spawns : Calm threads (Interp.spawn jobs) := by
    intro state ready
    rw [wp_spawn]
    refine ⟨fun _ _ => allowed, fun reply _ => ⟨.refl _, ready, ?_, ?_⟩⟩
    · intro _ _
      trivial
    · rintro _ ⟨⟩
  exact spawns.bind fun _ => (joins _ _).bind fun _ =>
    (refuses _ _).bind fun _ => .pure _

theorem Calm.deliverLines (point : Point) (lines : List String) :
    Calm threads (NetLang.deliverLines point lines) := by
  induction lines with
  | nil => exact .pure _
  | cons line rest induction =>
      intro state ready
      unfold wp NetLang.deliverLines
      have printed : Calm threads (Interp.print point line) :=
        .print point line
      refine (printed state ready).bind ?_
      rintro ⟨result, after⟩ held
      rcases result with (error | _ | _) | _
      · exact ⟨held.rel, held.inv, fun _ _ => trivial, fun _ _ => trivial⟩
      · exact ⟨held.rel, held.inv, fun _ _ => trivial, fun _ _ => trivial⟩
      · exact ⟨held.rel, held.inv, fun _ _ => trivial, fun _ _ => trivial⟩
      · refine wp_mono (induction after held.inv) fun result last done => ?_
        exact ⟨held.rel.trans done.rel, done.inv, done.ok, done.error⟩

theorem Calm.deliver (point : Point) (outcomes : List Outcome)
    (first : Option RuntimeError) :
    Calm threads (NetLang.deliver point outcomes first) := by
  induction outcomes generalizing first with
  | nil => exact .pure _
  | cons outcome rest induction =>
      exact (Calm.deliverLines _ _).bind fun _ => induction _

theorem Calm.prepare (point : Point) (job : Nat → Value → HostId → Worker)
    (i : Nat) (values : List Value) :
    Calm threads (NetLang.prepare point job i values) := by
  induction values generalizing i with
  | nil => exact .pure _
  | cons value rest induction =>
      exact (Calm.tick _).bind fun _ => (Calm.fork _).bind fun _ =>
        (induction _).bind fun _ => .pure _

include framed

theorem frames_iterationBody (worker : Worker) :
    Frames threads (iterationBody self worker) :=
  (Frames.allocate _).bind fun _ => (framed.body _ _ _ _ _).bind fun _ =>
    frames_finishIteration _ _

theorem executeWorker_safe (worker : Worker) :
    (executeWorker self worker).Safe (isolation threads) fun _ => True :=
  (frames_iterationBody framed worker worker.start worker.start_ready).bind
    fun _ _ => trivial

theorem Calm.runInline (jobs : List Worker) :
    Calm threads (NetLang.runInline self jobs) := by
  induction jobs with
  | nil => exact .pure _
  | cons job rest induction =>
      refine Calm.bind ?_ fun _ => induction.bind fun _ => .pure _
      intro state ready
      refine (executeWorker_safe framed job).bind fun result _ => ?_
      exact ⟨.refl _, ready, fun _ _ => trivial, fun _ _ => trivial⟩

theorem Calm.runJobs (point : Point) (jobs : List Worker) :
    Calm threads (NetLang.runJobs self point jobs) := by
  intro state
  refine runs_get fun ready => ?_
  split
  · exact Calm.runInline framed jobs state
  · next outside =>
      exact Calm.runThreads point jobs
        (ready.threads (by simpa using outside)) state

theorem Calm.batches (point : Point) (job : Nat → Value → HostId → Worker)
    (width batch : Nat) (values : List (List Value)) :
    Calm threads (NetLang.batches self point job width batch values) := by
  induction values generalizing batch with
  | nil => exact .pure _
  | cons values rest induction =>
      refine (Calm.prepare _ _ _ _).bind fun _ =>
        (Calm.runJobs framed _ _).bind fun _ =>
          (Calm.deliver _ _ _).bind fun first => Calm.bind ?_ fun _ =>
            induction _
      cases first with
      | none => exact .pure _
      | some error => exact .stop _

/-- A parallel statement only uses the host, besides its iterable. -/
theorem Calm.iterations (point : Point) (env : Environment)
    (variableName : String) (body : Stmt) (values : List Value) :
    Calm threads
      (NetLang.iterations self point env variableName body values) :=
  fun state => runs_get fun _ => Calm.batches framed _ _ _ _ _ state

theorem frames_parallel [Formatting] (point : Point) (env : Environment)
    (variableName : String) (iterable : Expr) (body : Stmt) :
    Frames threads
      (parallel self point env variableName iterable body) := by
  refine (framed.expression _ _ _ _).bind fun values => ?_
  split
  · exact .pure _
  · refine Calm.frames fun state => ?_
    exact runs_reported (Calm.iterations framed _ _ _ _ _ state)
      fun _ _ ready held => ⟨ready.isolated, held.rel⟩
  · exact .fail _ _

end Parallel

section Statements

variable [Formatting] {self : Evaluator} (framed : self.Framed)
include framed

omit [Formatting] in
theorem frames_condition (point : Point) (test : Expr)
    (env : Environment) :
    Frames threads (condition self point test env) :=
  (framed.expression _ _ _ _).bind fun _ => (Frames.lift _ _).relocate

omit [Formatting] in
theorem frames_scopedBody (point : Point) (body : Stmt)
    (env : Environment) :
    Frames threads (scopedBody self point body env) :=
  (framed.body _ _ _ _ _).bind fun _ => .pure _

omit [Formatting] in
theorem frames_whileLoop (point : Point) (test : Expr) (body : Stmt)
    (env : Environment) :
    Frames threads (whileLoop self point test body env) := by
  refine (frames_condition framed _ _ _).bind fun _ => .ite ?_ (.pure _)
  refine (frames_scopedBody framed _ _ _).bind fun flow => ?_
  split
  · exact .pure _
  · exact .pure _
  · exact framed.whileLoop _ _ _ _ _

omit [Formatting] in
theorem frames_forLoop (point : Point) (variableName : String)
    (body : Stmt) (env : Environment) (values : List Value) :
    Frames threads (forLoop self point variableName body env values) := by
  induction values with
  | nil => exact .pure _
  | cons value rest induction =>
      refine (Frames.tick _).bind fun _ => (Frames.allocate _).bind fun _ =>
        (framed.body _ _ _ _ _).bind fun (flow, _) => ?_
      cases flow with
      | normal => exact induction
      | «continue» => exact induction
      | «break» => exact .pure _
      | «return» value => exact .pure _

omit [Formatting] in
theorem frames_matchArms (point : Point) (env : Environment)
    (value : Value) (i : Nat) (arms : List (Pattern × Stmt)) :
    Frames threads (matchArms self point env value i arms) := by
  induction arms generalizing i with
  | nil => exact .pure _
  | cons arm rest induction =>
      exact .ite (frames_scopedBody framed _ _ _) (induction _)

theorem frames_statement (point : Point) (env : Environment) :
    ∀ node, Frames threads (statement self point node env)
  | .type _ _ | .break | .continue | .function _ _ _ _ => .pure _
  | .located _ inner => (frames_statement point env inner).withSpan
  | .let _ _ _ => .stop _
  | .expression _ => (framed.expression _ _ _ _).bind fun _ => .pure _
  | .block _ => frames_scopedBody framed _ _ _
  | .return value => by
      refine Frames.location.bind fun _ => Frames.bind ?_ fun _ =>
        (Frames.checkReturn _ _).relocate.bind fun _ => .pure _
      cases value with
      | some value => exact framed.expression _ _ _ _
      | none => exact .pure _
  | .if _ _ elseBranch => by
      refine (frames_condition framed _ _ _).bind fun _ =>
        .ite (frames_scopedBody framed _ _ _) ?_
      cases elseBranch with
      | some branch => exact frames_scopedBody framed _ _ _
      | none => exact .pure _
  | .while _ _ => framed.whileLoop _ _ _ _ _
  | .for _ _ _ => by
      refine (framed.expression _ _ _ _).bind fun values => ?_
      split
      · exact frames_forLoop framed _ _ _ _ _
      · exact .fail _ _
  | .match _ _ => (framed.expression _ _ _ _).bind fun _ =>
      frames_matchArms framed _ _ _ _ _
  | .parallel _ _ _ =>
      (frames_parallel framed _ _ _ _ _).bind fun _ => .pure _

/-- The slots of the `let` statements of a list may be written. -/
def SlotsWritable (state : Interpreter) (list : List (Stmt × Option Nat)) :
    Prop :=
  ∀ node slot, (node, some slot) ∈ list →
    ∀ name annotated value, node.unspanned = .let name annotated value →
      Writable state slot

omit [Formatting] framed in
theorem SlotsWritable.frame {before after : Interpreter}
    {list : List (Stmt × Option Nat)} (writable : SlotsWritable before list)
    (frame : Frame before after) : SlotsWritable after list :=
  fun node slot member name annotated value same =>
    (writable node slot member name annotated value same).frame frame

omit [Formatting] in
theorem runs_executeLet (point : Point) (name : String) (value : Expr)
    (slot : Option Nat) (env : Environment) (state : Interpreter)
    (writable : ∀ id, slot = some id → Writable state id) :
    (framing threads).Runs (executeLet self point name value slot env)
      (fun _ _ => True) state := by
  refine (Frames.location state).bind fun _ start same _ _ => ?_
  refine (framed.expression _ _ _ _ start).bind fun value next frame _ _ => ?_
  cases slot with
  | none => exact (Frames.slotOf none).bind (fun _ => .stop .panic) next
  | some id =>
      refine (Frames.checkBinding _ id value).relocate next |>.bind
        fun _ later checked _ _ => ?_
      refine (runs_write ((writable id rfl).frame
        (same.trans (frame.trans checked)))).bind fun _ last _ _ _ => ?_
      exact ((Frames.declareIn env name id).bind fun _ => .pure _) last

theorem runs_execute (point : Point) (node : Stmt) (slot : Option Nat)
    (env : Environment) (state : Interpreter)
    (writable : SlotsWritable state [(node, slot)]) :
    (framing threads).Runs (execute self point node slot env)
      (fun _ _ => True) state := by
  have keeps : (framing threads).Runs (do
      tick point
      executeUnlocated self point node.unspanned slot env)
      (fun outcome _ => KeepsEnvironment node.unspanned env (.ok outcome))
      { state with currentSpan := node.span.or state.currentSpan } := by
    refine (Frames.tick point _).bind fun _ next frame _ _ => ?_
    unfold executeUnlocated
    split
    · next name annotated value same =>
        refine (runs_executeLet framed _ _ _ _ _ _ fun id known => ?_).mono
          fun _ _ _ _ _ other => absurd same (other name annotated value)
        subst known
        have outside := writable node id List.mem_cons_self _ _ _ same
        have entered : Writable { state with
            currentSpan := node.span.or state.currentSpan } id :=
          ⟨outside.own, outside.mutable, outside.inside⟩
        exact entered.frame frame
    · refine (frames_statement framed _ _ _ next).bind
        fun flow _ _ _ _ => runs_pure fun _ outcome same => ?_
      cases same
      rfl
  refine runs_withSpan (Runs.mono (runs_observed (fun ready => ready.isolated)
    keeps ?_) fun _ _ _ _ _ => trivial)
  intro result final ready held
  exact ⟨ready.isolated, held.rel, fun other outcome same =>
    held.ok outcome same other outcome rfl⟩

theorem runs_executeAll (point : Point) (i : Nat)
    (list : List (Stmt × Option Nat)) (env : Environment)
    (state : Interpreter) (writable : SlotsWritable state list) :
    (framing threads).Runs (executeAll self point i list env)
      (fun _ _ => True) state := by
  induction list generalizing i env state with
  | nil => exact runs_pure trivial
  | cons entry rest induction =>
      obtain ⟨node, slot⟩ := entry
      refine (runs_execute framed _ node slot env state ?_).bind
        fun (flow, env) next frame _ _ => ?_
      · intro other id member
        rw [List.mem_singleton] at member
        exact writable other id (member ▸ List.mem_cons_self)
      · have rest := induction (i + 1) env next fun other id member =>
          (writable.frame frame) other id (List.mem_cons_of_mem _ member)
        cases flow with
        | normal => exact rest
        | «continue» => exact runs_pure trivial
        | «break» => exact runs_pure trivial
        | «return» value => exact runs_pure trivial

end Statements

section Evaluators

theorem hoist_slotsWritable {state : Interpreter}
    (ready : Ready threads state) (point : Point) (list : List Stmt)
    (scope : NameMap Nat) (outer : Environment) :
    SlotsWritable (state.hoist point list scope outer)
      (list.zip (slotsFrom state.bindings.length list)) := by
  intro node slot member name annotated value shape
  obtain ⟨i, rfl, found⟩ := mem_zip_slotsFrom state.types
    state.functions.length member shape
  have reserved : (state.hoist point list scope outer).bindings[
      state.bindings.length + i]? =
      some ⟨resolveAnnotated state.types annotated, none, true⟩ := by
    simp only [Interpreter.hoist]
    rw [List.getElem?_append_right (Nat.le_add_right _ _),
      Nat.add_sub_cancel_left, found]
  refine ⟨?_, ?_, (List.getElem?_eq_some_iff.mp reserved).1⟩
  · exact ready.inside.trans (Nat.le_add_right _ _)
  · intro binding same
    cases reserved.symm.trans same
    rfl

variable [Formatting] {self : Evaluator} (framed : self.Framed)
include framed

theorem frames_statements (point : Point) (list : List Stmt)
    (scope : NameMap Nat) (outer : Environment) :
    Frames threads (statements self point list (scope :: outer)) := by
  intro state ready
  unfold wp
  rw [statements_eq]
  have frame := state.hoist_frame point list scope outer
  refine wp_mono (runs_executeAll framed point 0 _ _ _
    (hoist_slotsWritable ready point list scope outer)
    (ready.frame frame)) fun result after held => ?_
  exact ⟨frame.trans held.rel, held.inv, held.ok, held.error⟩

theorem frames_body (point : Point) (scope : NameMap Nat)
    (outer : Environment) :
    ∀ node, Frames threads (body self point node (scope :: outer))
  | .located _ inner => (frames_body point scope outer inner).withSpan
  | .block _ => Frames.bind (.observe fun _ isolated => isolated) fun _ =>
      frames_statements framed _ _ _ _
  | .type _ _ | .break | .continue | .parallel _ _ _ | .match _ _
  | .let _ _ _ | .expression _ | .if _ _ _ | .while _ _ | .for _ _ _
  | .function _ _ _ _ | .return _ =>
      Frames.bind (.observe fun _ isolated => isolated) fun _ =>
        frames_statements framed _ _ _ _

omit self framed in
theorem Evaluator.Framed.step {self : Evaluator} (framed : self.Framed) :
    self.step.Framed where
  expression := fun _ point node env =>
    frames_expression framed point env node
  body := fun _ point node scope outer =>
    frames_body framed point scope outer node
  whileLoop := fun _ _ _ _ _ => frames_whileLoop framed _ _ _ _

omit self framed in
/-- Every evaluator has the frame. -/
theorem evaluator_framed (clock : Nat) : (evaluator clock).Framed := by
  induction clock with
  | zero =>
      exact ⟨fun _ _ _ _ => .stop _, fun _ _ _ _ _ => .stop _,
        fun _ _ _ _ _ => .stop _⟩
  | succ clock induction => exact induction.step

omit self framed in
theorem frames_callMain (clock : Nat) (program : Program)
    (env : Environment) :
    Frames threads (callMain (evaluator clock) program env) := by
  refine .ite ?_ (.pure _)
  split
  · exact .stop _
  · split
    · exact .pure _
    · refine (Frames.binding _).bind fun found => ?_
      split
      · exact frames_callValue (evaluator_framed clock) _ _ _
      · exact .pure _

omit self framed in
theorem frames_runStatements (clock : Nat) (program : Program) :
    Frames threads (runStatements (evaluator clock) program) :=
  (frames_statements (evaluator_framed clock) _ _ _ _).bind fun _ =>
    frames_callMain clock program _

omit self framed [Formatting] in
theorem initialState_ready (identity : Nat) (limits : Limits)
    (program : Program) : Ready True (initialState identity limits program) :=
  { isolated := fun _ known => nomatch known
    inside := Nat.zero_le _
    threads := fun _ => trivial }

omit self framed in
/-- Every execution is safe under the contract of isolation. -/
theorem execution_safe (clock identity : Nat) (limits : Limits)
    (program : Program) :
    (execution clock identity limits program).Safe (isolation True)
      fun _ => True := by
  have ready := initialState_ready identity limits program
  unfold execution runProgram
  cases program.statements.find? Stmt.isMainWithParameters with
  | some node => trivial
  | none =>
      exact (frames_runStatements clock program _ ready).mono
        fun _ _ => trivial

omit self framed in
theorem workerThread_safe (worker : Worker) :
    (workerThread worker).Safe (isolation threads) fun _ => True :=
  (executeWorker_safe (evaluator_framed _) worker).bind fun _ _ => trivial

omit self framed in
theorem setup_isolated (host : Host effects) :
    (setup host).Meets (isolation True) where
  host := fun _ _ _ _ _ _ => trivial
  job := fun worker _ => workerThread_safe worker
  panicked := fun _ _ => trivial

omit self framed in
/-- Every observation of every run has the frame. -/
theorem runOf_framed (host : Host effects) (clock identity : Nat)
    (limits : Limits) (program : Program) (choices : List Nat) :
    ∀ note ∈ (runOf host clock identity limits program choices).shared.notes,
      note.Framed :=
  (Machine.run_safe choices (setup_isolated host)
    (Machine.start_safe (execution_safe clock identity limits program))
    ).shared.notes

end Evaluators

section Starting

variable {snapshot : Snapshot}

/-- Only workers that start from the given snapshot may be spawned. -/
def startsFrom (snapshot : Snapshot) : Contract effects where
  call := fun _ => True
  reply := fun _ _ => True
  job := fun worker => worker.snapshot = snapshot
  done := fun _ _ => True
  note := fun _ => True

/-- A computation that spawns such workers only. -/
def Starts (snapshot : Snapshot) (comp : Interp α) (post : α → Prop) : Prop :=
  ∀ state, (comp state).Safe (startsFrom snapshot) fun outcome =>
    ∀ value, outcome.1 = .ok value → post value

namespace Starts

variable {comp : Interp α} {post : α → Prop}

theorem bind {f : α → Interp β} {later : β → Prop}
    (first : Starts snapshot comp post)
    (rest : ∀ value, post value → Starts snapshot (f value) later) :
    Starts snapshot (comp >>= f) later := by
  intro state
  refine Comp.Safe.bind (first state) ?_
  rintro ⟨result, after⟩ holds
  cases result with
  | ok value => exact rest value (holds value rfl) after
  | error reason => exact fun _ wrong => by cases wrong

theorem instant (ends : ∀ state, ∃ outcome, comp state = .ret outcome ∧
      ∀ value, outcome.1 = .ok value → post value) :
    Starts snapshot comp post := by
  intro state
  obtain ⟨outcome, same, holds⟩ := ends state
  rw [same]
  exact holds

theorem pure {value : α} (holds : post value) :
    Starts snapshot (Pure.pure value) post :=
  .instant fun _ => ⟨_, rfl, fun _ same => by cases same; exact holds⟩

theorem stop (reason : Stop) :
    Starts snapshot (Interp.stop reason : Interp α) post :=
  .instant fun _ => ⟨_, rfl, fun _ wrong => by cases wrong⟩

theorem call (point : Point) (operation : HostCall) :
    Starts snapshot (Interp.call point operation) fun _ => True :=
  fun _ => ⟨trivial, fun reply _ => by
    cases reply <;> exact fun _ _ => trivial⟩

theorem print (point : Point) (text : String) :
    Starts snapshot (Interp.print point text) fun _ => True := by
  intro state
  unfold Interp.print
  split
  · exact call point _ state
  · split
    · exact fun _ _ => trivial
    · exact fun _ _ => trivial

/-- What spawns nothing starts from any snapshot. -/
theorem of_isolated {comp : Comp effects β} {last : β → Prop}
    (safe : comp.Safe (isolation False) last) :
    comp.Safe (startsFrom snapshot) last := by
  induction comp with
  | ret value => exact safe
  | act action next induction =>
      obtain ⟨offered, rest⟩ := safe
      cases action with
      | tick => exact ⟨trivial, fun reply _ =>
          induction reply (rest reply trivial)⟩
      | call operation => exact ⟨trivial, fun reply _ =>
          induction reply (rest reply trivial)⟩
      | observe note => exact ⟨trivial, fun reply _ =>
          induction reply (rest reply trivial)⟩
      | spawn jobs => exact ⟨fun job member => (offered job member).elim,
          fun reply joined => induction reply (rest reply joined)⟩

end Starts

theorem starts_prepare (point : Point) {job : Nat → Value → HostId → Worker}
    (same : ∀ i value host, (job i value host).snapshot = snapshot) (i : Nat)
    (values : List Value) : Starts snapshot (prepare point job i values)
      fun jobs => ∀ worker ∈ jobs, worker.snapshot = snapshot := by
  induction values generalizing i with
  | nil => exact .pure fun _ member => by cases member
  | cons value rest induction =>
      have ticks : Starts snapshot (tick point) fun _ => True :=
        fun _ => ⟨trivial, fun granted _ => by
          cases granted <;> exact fun _ _ => trivial⟩
      have forks : Starts snapshot (fork point) fun _ => True :=
        (Starts.call point .fork).bind fun _ _ =>
          .instant fun _ => ⟨_, rfl, fun _ _ => trivial⟩
      refine ticks.bind fun _ _ => forks.bind fun host _ =>
        (induction _).bind fun jobs all => .pure ?_
      intro worker member
      rcases List.mem_cons.mp member with rfl | later
      · exact same _ _ _
      · exact all worker later

theorem starts_runThreads (point : Point) {jobs : List Worker}
    (all : ∀ worker ∈ jobs, worker.snapshot = snapshot) :
    Starts snapshot (runThreads point jobs) fun _ => True := by
  have spawns : Starts snapshot (spawn jobs) fun _ => True :=
    fun _ => ⟨all, fun _ _ _ _ => trivial⟩
  have joins : ∀ (jobs : List Worker) (ends : List WorkerEnd),
      Starts snapshot (joinOutcomes point jobs ends) fun _ => True := by
    intro jobs
    induction jobs with
    | nil =>
        intro ends
        exact .pure trivial
    | cons job jobs induction =>
        intro ends
        cases ends with
        | nil => exact .pure trivial
        | cons done ends =>
            have joined : Starts snapshot (joinOutcome point job done)
                fun _ => True := by
              cases done with
              | finished outcome => exact .pure trivial
              | panicked => exact .instant fun _ => ⟨_, rfl, fun _ _ => trivial⟩
              | outOfFuel => exact .stop _
            exact joined.bind fun _ _ =>
              (induction ends).bind fun _ _ => .pure trivial
  have refuses : ∀ (started : Nat) (refusal : Option String),
      Starts snapshot (refusedOutcome point jobs started refusal)
        fun _ => True := by
    intro started refusal
    cases refusal with
    | none => exact .pure trivial
    | some reason => exact .instant fun _ => ⟨_, rfl, fun _ _ => trivial⟩
  exact spawns.bind fun _ _ => (joins _ _).bind fun _ _ =>
    (refuses _ _).bind fun _ _ => .pure trivial

theorem starts_deliver (point : Point) (outcomes : List Outcome)
    (first : Option RuntimeError) :
    Starts snapshot (deliver point outcomes first) fun _ => True := by
  have lines : ∀ list : List String,
      Starts snapshot (deliverLines point list) fun _ => True := by
    intro list
    induction list with
    | nil => exact .pure trivial
    | cons line rest induction =>
        intro state
        refine Comp.Safe.bind (Starts.print point line state) ?_
        rintro ⟨result, after⟩ _
        rcases result with (error | _ | _) | _
        · exact fun _ _ => trivial
        · exact fun _ _ => trivial
        · exact fun _ _ => trivial
        · exact induction after
  induction outcomes generalizing first with
  | nil => exact .pure trivial
  | cons outcome rest induction =>
      exact (lines _).bind fun _ _ => induction _

theorem starts_runInline {self : Evaluator} (framed : self.Framed)
    (jobs : List Worker) :
    Starts snapshot (runInline self jobs) fun _ => True := by
  induction jobs with
  | nil => exact .pure trivial
  | cons job rest induction =>
      have runs : Starts snapshot (fun state =>
          (executeWorker self job).bind fun result =>
            .ret (result, state)) fun _ => True :=
        fun _ => Comp.Safe.bind
          (Starts.of_isolated (executeWorker_safe framed job))
          fun _ _ _ _ => trivial
      exact runs.bind fun _ _ => induction.bind fun _ _ => .pure trivial

/-- A parallel statement spawns workers that start from the snapshot of the
state in which it begins. -/
theorem starts_iterations [Formatting] (clock : Nat) (point : Point)
    (env : Environment) (variableName : String) (body : Stmt)
    (values : List Value) (state : Interpreter) :
    (iterations (evaluator clock) point env variableName body values
      state).Safe (startsFrom (state.snapshotAt env)) fun _ => True := by
  have batched : ∀ (job : Nat → Value → HostId → Worker),
      (∀ i value host, (job i value host).snapshot = state.snapshotAt env) →
      ∀ (width batch : Nat) (lists : List (List Value)),
      Starts (state.snapshotAt env)
        (batches (evaluator clock) point job width batch lists)
        fun _ => True := by
    intro job same width batch lists
    induction lists generalizing batch with
    | nil => exact .pure trivial
    | cons values rest induction =>
        refine (starts_prepare point same _ _).bind fun jobs all => ?_
        have runs : Starts (state.snapshotAt env)
            (runJobs (evaluator clock) point jobs) fun _ => True := by
          intro before
          change Comp.Safe _ _ ((if before.inParallelWorker = true then
            runInline (evaluator clock) jobs
            else runThreads point jobs) before)
          split
          · exact starts_runInline (evaluator_framed clock) jobs before
          · exact starts_runThreads point all before
        refine runs.bind fun outcomes _ =>
          (starts_deliver point outcomes none).bind fun first _ => ?_
        have finishes : Starts (state.snapshotAt env) (finishBatch first)
            fun _ => True := by
          cases first with
          | none => exact .pure trivial
          | some error => exact .stop _
        exact finishes.bind fun _ _ => induction _
  exact (batched _ (fun _ _ _ => rfl) _ _ _ state).mono fun _ _ => trivial

end Starting

/-- The interpreter states that an observation shows. -/
def Observation.states : Observation → List Interpreter
  | .evaluating _ _ _ state | .executing _ _ _ state
  | .storing _ _ _ _ state | .entering _ _ state => [state]
  | .evaluated _ _ _ before _ after | .executed _ _ _ before _ after
  | .returned _ before _ after | .assigned _ _ _ _ _ before _ after
  | .joined _ before _ after => [before, after]

theorem Observation.Framed.isolated {note : Observation}
    (framed : note.Framed) : ∀ state ∈ note.states, Isolated state := by
  cases note with
  | evaluating point node env state | executing point node env state
  | storing point id selectors value state | entering point node state =>
      intro shown member
      rw [Observation.states, List.mem_singleton] at member
      exact member ▸ framed
  | executed point node env before result after =>
      simpa [Observation.states] using
        ⟨framed.1, framed.2.1.isolated framed.1⟩
  | joined point before result after =>
      simpa [Observation.states] using
        ⟨framed.1, framed.2.frame.isolated framed.1⟩
  | _ =>
      simpa [Observation.states] using ⟨framed.1, framed.2.isolated framed.1⟩

/-- Workers are isolated in every run.  Whenever a worker is observed, the
bindings below its boundary and the functions it inherited are those of the
snapshot it was started from, which is that of the state in which the parallel
statement begins.  A parallel statement, observed from the end of
its iterable to its own end, leaves the enclosing interpreter's bindings,
functions, call stack, return type and expression depth as they were, and it
hands back the environment it was given. -/
theorem run_isolates_workers [Formatting] (host : Host effects)
    (clock identity : Nat) (limits : Limits) (program : Program)
    (choices : List Nat) :
    let notes := (runOf host clock identity limits program choices).shared.notes
    (∀ note ∈ notes, ∀ state ∈ note.states, ∀ snapshot,
      state.snapshot = some snapshot →
        state.capturedBindings = snapshot.bindings.length ∧
        state.bindings.take state.capturedBindings = snapshot.bindings ∧
        state.functions.take snapshot.functions.length =
          snapshot.functions) ∧
    (∀ point before result after,
      Observation.joined point before result after ∈ notes →
        after.bindings = before.bindings ∧
        after.functions = before.functions ∧
        after.callStack = before.callStack ∧
        after.returnType = before.returnType ∧
        after.expressionDepth = before.expressionDepth) ∧
    (∀ point variableName iterable body env before outcome after,
      Observation.executed point (.parallel variableName iterable body) env
        before (.ok outcome) after ∈ notes → outcome.2 = env) ∧
    ∀ clock point env variableName body values state,
      (iterations (evaluator clock) point env variableName body values
        state).Safe (startsFrom (state.snapshotAt env)) fun _ => True := by
  intro notes
  have framed := runOf_framed host clock identity limits program choices
  refine ⟨?_, ?_, ?_, starts_iterations⟩
  · intro note member state shown snapshot known
    obtain ⟨length, bindings, functions⟩ :=
      (framed note member).isolated state shown snapshot known
    exact ⟨length, bindings, (List.prefix_iff_eq_take.mp functions).symm⟩
  · intro point before result after member
    have only := (framed _ member).2.same
    rw [only]
    exact ⟨rfl, rfl, rfl, rfl, rfl⟩
  · intro point variableName iterable body env before outcome after member
    exact (framed _ member).2.2 (fun _ _ _ => nofun) outcome rfl

end NetLang
