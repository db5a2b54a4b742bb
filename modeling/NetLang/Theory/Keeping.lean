import NetLang.Theory.Buffers
import NetLang.Theory.Frame

/-!
# What every reachable state satisfies

The captured bindings of an interpreter are in its arena, and the buffer of a
worker is accounted for.  Statements are executed with no expression around
them: the depth of expressions is zero in a statement, and a call sets it back
to zero for its body.
-/

namespace NetLang

open Interp Discipline

/-- The invariant of every interpreter. -/
structure Orderly (state : Interpreter) : Prop where
  inside : state.capturedBindings ≤ state.bindings.length
  accounted : ∀ buffer, state.runtime.buffer = some buffer →
    buffer.Accounted ∧ buffer.outputLimit = state.limits.parallelOutputBytes

/-- The states that an observation shows are orderly, and no statement is
executed inside of an expression. -/
def Observation.Orderly : Observation → Prop
  | .evaluating _ _ _ state => NetLang.Orderly state
  | .executing _ _ _ state =>
      NetLang.Orderly state ∧ state.expressionDepth = 0
  | .evaluated _ _ _ before _ after | .executed _ _ _ before _ after
  | .returned _ before _ after | .assigned _ _ _ _ _ before _ after
  | .joined _ before _ after =>
      NetLang.Orderly before ∧ NetLang.Orderly after
  | .storing _ _ _ _ state | .entering _ _ state => NetLang.Orderly state

/-- Only an interpreter that is not a worker starts threads. -/
def orderly (threads : Prop) : Contract effects where
  call := fun _ => True
  reply := fun _ _ => True
  job := fun _ => threads
  done := fun _ _ => True
  note := Observation.Orderly

/-- The depth of expressions is kept, and the arena of bindings grows. -/
structure Keeps (before after : Interpreter) : Prop where
  expressionDepth : after.expressionDepth = before.expressionDepth
  inParallelWorker : after.inParallelWorker = before.inParallelWorker

theorem Keeps.refl (state : Interpreter) : Keeps state state :=
  ⟨rfl, rfl⟩

theorem Keeps.trans {first second third : Interpreter}
    (before : Keeps first second) (after : Keeps second third) :
    Keeps first third :=
  ⟨after.expressionDepth.trans before.expressionDepth,
    after.inParallelWorker.trans before.inParallelWorker⟩

/-- What holds before a computation; at the top, outside of any expression. -/
structure Prepared (threads top : Prop) (state : Interpreter) : Prop where
  orderly : Orderly state
  threads : state.inParallelWorker = false → threads
  top : top → state.expressionDepth = 0

def keeping (threads top : Prop) : Discipline where
  contract := orderly threads
  rel := Keeps
  inv := Prepared threads top
  stop := fun _ => True
  refl := .refl
  trans := .trans

variable {α β : Type} {threads top : Prop}

theorem Prepared.keeps {before after : Interpreter}
    (prepared : Prepared threads top before) (orderly : Orderly after)
    (keeps : Keeps before after) : Prepared threads top after :=
  ⟨orderly, fun outside => prepared.threads (keeps.inParallelWorker ▸ outside),
    fun isTop => keeps.expressionDepth.trans (prepared.top isTop)⟩

/-- A computation keeps the invariant, from every state that has it. -/
def Kept (threads top : Prop) (comp : Interp α) : Prop :=
  ∀ state, (keeping threads top).Runs comp (fun _ _ => True) state

section Rules

theorem Kept.pure (value : α) : Kept threads top (pure value) :=
  fun _ => runs_pure trivial

theorem Kept.stop (reason : Stop) :
    Kept threads top (Interp.stop reason : Interp α) :=
  fun _ => runs_stop trivial

theorem Kept.fail (point : Point) (kind : ErrorKind) :
    Kept threads top (Interp.fail point kind : Interp α) :=
  fun _ => runs_fail trivial

theorem Kept.lift (point : Point) (result : Except ErrorKind α) :
    Kept threads top (Interp.lift point result) :=
  fun _ => runs_lift (fun _ _ => trivial) fun _ _ => trivial

theorem Kept.bind {comp : Interp α} {f : α → Interp β}
    (first : Kept threads top comp)
    (rest : ∀ value, Kept threads top (f value)) :
    Kept threads top (comp >>= f) :=
  fun state => (first state).bind fun value next _ _ _ => rest value next

theorem Kept.get {f : Interpreter → Interp β}
    (rest : ∀ state, Kept threads top (f state)) :
    Kept threads top (Interp.get >>= f) :=
  fun state => runs_get fun _ => rest state state

theorem Kept.ite {condition : Prop} [Decidable condition]
    {first second : Interp α} (yes : Kept threads top first)
    (no : Kept threads top second) :
    Kept threads top (if condition then first else second) := by
  split
  · exact yes
  · exact no

theorem Kept.relocate {locate : Option Span → Option Span}
    {comp : Interp α} (kept : Kept threads top comp) :
    Kept threads top (Interp.relocate locate comp) :=
  fun state => runs_relocate (kept state) fun _ _ => trivial

/-- A change of the state that keeps it orderly. -/
theorem Kept.ret {comp : Interp α} (value : Interpreter → α)
    (change : Interpreter → Interpreter)
    (same : ∀ state, comp state = .ret (.ok (value state), change state))
    (orderly : ∀ state, Orderly state → Orderly (change state))
    (keeps : ∀ state, Keeps state (change state)) :
    Kept threads top comp :=
  fun state => runs_ret (same state) (fun _ => keeps state)
    (fun prepared => prepared.keeps (orderly state prepared.orderly)
      (keeps state)) fun _ => trivial

/-- What is kept at every depth is kept at the top. -/
theorem Kept.atTop {comp : Interp α} (kept : Kept threads False comp) :
    Kept threads top comp := by
  intro state prepared
  refine wp_mono (kept state
    ⟨prepared.orderly, prepared.threads, False.elim⟩) fun _ _ held => ?_
  exact ⟨held.rel, prepared.keeps held.inv.orderly held.rel, held.ok,
    held.error⟩

/-- A part of the state that is put back is not changed. -/
theorem Kept.around {inner : Prop} {comp : Interp α}
    {enter : Interpreter → Interpreter}
    {leave : Interpreter → Interpreter → Interpreter}
    (entered : ∀ state, Prepared threads top state →
      Prepared threads inner (enter state))
    (kept : Kept threads inner comp)
    (left : ∀ state after, Keeps (enter state) after → Orderly after →
      Keeps state (leave state after) ∧ Orderly (leave state after)) :
    Kept threads top (Interp.around enter leave comp) := by
  intro state prepared
  rw [wp_around]
  refine wp_mono (kept _ (entered state prepared)) fun result after held => ?_
  obtain ⟨keeps, orderly⟩ := left state after held.rel held.inv.orderly
  exact ⟨keeps, prepared.keeps orderly keeps, fun _ _ => trivial,
    fun _ _ => trivial⟩

theorem Kept.withSpan {span : Option Span} {comp : Interp α}
    (kept : Kept threads top comp) :
    Kept threads top (Interp.withSpan span comp) := by
  refine Kept.around ?_ kept ?_
  · intro state prepared
    exact ⟨⟨prepared.orderly.inside, prepared.orderly.accounted⟩,
      prepared.threads, prepared.top⟩
  · intro state after keeps orderly
    exact ⟨⟨keeps.expressionDepth, keeps.inParallelWorker⟩,
      orderly.inside, orderly.accounted⟩

theorem Kept.nested {point : Point} {comp : Interp α}
    (kept : Kept threads False comp) :
    Kept threads False (Interp.nested point comp) := by
  intro state
  refine runs_nested trivial (Kept.around ?_ kept ?_ state)
  · intro state prepared
    exact ⟨⟨prepared.orderly.inside, prepared.orderly.accounted⟩,
      prepared.threads, False.elim⟩
  · intro state after keeps orderly
    have deeper := keeps.expressionDepth
    simp only at deeper
    exact ⟨⟨by simp [deeper], keeps.inParallelWorker⟩, orderly.inside,
      orderly.accounted⟩

/-- The body of a call is at the top again. -/
theorem Kept.framed {name : String} {returnType : Option ResolvedType}
    {comp : Interp α} (kept : Kept threads True comp) :
    Kept threads top (Interp.framed name returnType comp) := by
  refine Kept.around ?_ kept ?_
  · intro state prepared
    exact ⟨⟨prepared.orderly.inside, prepared.orderly.accounted⟩,
      prepared.threads, fun _ => rfl⟩
  · intro state after keeps orderly
    exact ⟨⟨rfl, keeps.inParallelWorker⟩, orderly.inside,
      orderly.accounted⟩

theorem Kept.observed {comp : Interp α}
    {before : Interpreter → Observation}
    {after : Interpreter → Result α → Interpreter → Observation}
    (kept : Kept threads top comp)
    (shown : ∀ state, Prepared threads top state → (before state).Orderly)
    (note : ∀ state result final, Orderly state → Orderly final →
      (after state result final).Orderly) :
    Kept threads top (Interp.observed before after comp) :=
  fun state => runs_observed (shown state) (kept state)
    fun result final prepared held =>
      note state result final prepared.orderly held.inv.orderly

theorem Kept.reported {comp : Interp α}
    {after : Interpreter → Result α → Interpreter → Observation}
    (kept : Kept threads top comp)
    (note : ∀ state result final, Orderly state → Orderly final →
      (after state result final).Orderly) :
    Kept threads top (Interp.reported after comp) :=
  fun state => runs_reported (kept state)
    fun result final prepared held =>
      note state result final prepared.orderly held.inv.orderly

end Rules

section Primitives

theorem Kept.tick (point : Point) : Kept threads top (Interp.tick point) := by
  intro state
  refine runs_tick ⟨rfl, rfl⟩ (fun prepared => ?_) trivial trivial
  exact prepared.keeps ⟨prepared.orderly.inside, prepared.orderly.accounted⟩
    ⟨rfl, rfl⟩

theorem Kept.call (point : Point) (operation : HostCall) :
    Kept threads top (Interp.call point operation) :=
  fun _ => runs_call (fun _ => trivial) (fun _ _ => trivial)
    fun _ => trivial

theorem Kept.print (point : Point) (text : String) :
    Kept threads top (Interp.print point text) := by
  intro state prepared
  cases buffered : state.runtime.buffer with
  | none =>
      have direct : Kept threads top (Interp.call point (.print text)) :=
        .call point (.print text)
      have safe := direct state prepared
      simpa [wp, Interp.print, buffered] using safe
  | some buffer =>
      obtain ⟨result, printed, _⟩ := print_buffered point text buffered
      obtain ⟨accounted, limit⟩ := prepared.orderly.accounted buffer buffered
      obtain ⟨next, same⟩ := accounted.attempt text
      have keeps : Keeps state (state.withBuffer (buffer.attempt text)) :=
        ⟨rfl, rfl⟩
      have orderly : Orderly (state.withBuffer (buffer.attempt text)) := by
        refine ⟨prepared.orderly.inside, ?_⟩
        rintro other ⟨⟩
        exact ⟨next, same.trans limit⟩
      unfold wp
      rw [printed]
      exact ⟨keeps, prepared.keeps orderly keeps, fun _ _ => trivial,
        fun _ _ => trivial⟩

theorem Kept.fork (point : Point) : Kept threads top (Interp.fork point) :=
  (Kept.call point .fork).bind fun _ => Kept.ret _ _ (fun _ => rfl)
    (fun _ orderly => ⟨orderly.inside, orderly.accounted⟩)
    fun _ => ⟨rfl, rfl⟩

theorem Kept.allocate (binding : Binding) :
    Kept threads top (Interp.allocate binding) := by
  refine Kept.ret _ _ (fun _ => rfl) ?_ fun _ => ⟨rfl, rfl⟩
  intro state orderly
  refine ⟨?_, orderly.accounted⟩
  have inside := orderly.inside
  simp only [List.length_append]
  omega

theorem Kept.write (id : Nat) (value : Value) :
    Kept threads top (Interp.write id value) := by
  intro state prepared
  unfold wp Interp.write
  split
  · have keeps : Keeps state { state with
        bindings := state.bindings.modify id fun binding =>
          { binding with value := some value } } := ⟨rfl, rfl⟩
    have orderly := prepared.orderly
    refine ⟨keeps, prepared.keeps ⟨?_, orderly.accounted⟩ keeps,
      fun _ _ => trivial, fun _ _ => trivial⟩
    simpa using orderly.inside
  · exact (keeping threads top).runs_stop trivial prepared

theorem Kept.attempt (point : Point) {α : Type} (result : Except Fault α) :
    Kept threads top (Interp.attempt point result) := by
  rcases result with ((kind | _) | value)
  · exact .fail point kind
  · exact .stop .panic
  · exact .pure value

/-- An observation of the current state. -/
theorem Kept.observe {note : Interpreter → Observation}
    (shown : ∀ state, Orderly state → (note state).Orderly) :
    Kept threads top (Interp.observe note) := by
  intro state prepared
  refine ⟨shown state prepared.orderly, fun _ _ => ?_⟩
  exact Kept.pure () state prepared

theorem Kept.types : Kept threads top Interp.types :=
  .ret _ _ (fun _ => rfl) (fun _ orderly => orderly) .refl

theorem Kept.location : Kept threads top Interp.location :=
  .ret _ _ (fun _ => rfl) (fun _ orderly => orderly) .refl

theorem Kept.annotationType (annotated : Option TypeAnnotation) :
    Kept threads top (Interp.annotationType annotated) :=
  .ret _ _ (fun _ => rfl) (fun _ orderly => orderly) .refl

theorem Kept.binding (id : Nat) :
    Kept threads top (Interp.binding id) := by
  intro state prepared
  unfold wp Interp.binding
  split
  · exact (keeping threads top).runs_pure trivial prepared
  · exact (keeping threads top).runs_stop trivial prepared

theorem Kept.read (point : Point) (id : Nat) :
    Kept threads top (Interp.read point id) := by
  refine (Kept.binding id).bind fun binding => ?_
  cases binding.value with
  | some value => exact .pure value
  | none => exact .fail _ _

theorem Kept.check (point : Point) (expected : Option ResolvedType)
    (value : Value) : Kept threads top (Interp.check point expected value) :=
  fun state => Kept.attempt point
    (state.types.checkValueType expected value) state

theorem Kept.checkBinding (point : Point) (id : Nat) (value : Value) :
    Kept threads top (Interp.checkBinding point id value) :=
  (Kept.binding id).bind fun _ => .check _ _ _

theorem Kept.checkReturn (point : Point) (value : Value) :
    Kept threads top (Interp.checkReturn point value) :=
  fun state => Kept.check point state.returnType value state

theorem Kept.checkAssignable (point : Point) (id : Nat) :
    Kept threads top (Interp.checkAssignable point id) := by
  refine (Kept.binding id).bind fun binding => .ite (.fail _ _) ?_
  intro state prepared
  unfold wp
  beta_reduce
  split
  · exact Kept.fail point .capturedAssignment state prepared
  · exact Kept.pure () state prepared

theorem Kept.function (point : Point) (id given : Nat) :
    Kept threads top (Interp.function point id given) := by
  intro state prepared
  have fails : ∀ kind, wp (keeping threads top).contract
      (Interp.fail point kind : Interp Function)
      ((keeping threads top).After state fun _ _ => True) state :=
    fun _ => runs_fail trivial prepared
  unfold wp Interp.function
  split
  · exact fails _
  · split
    · exact fails _
    · split
      · exact fails _
      · exact Kept.pure _ state prepared

theorem Kept.resolve (point : Point) (env : Environment) (name : String) :
    Kept threads top (Interp.resolve point env name) := by
  unfold Interp.resolve
  cases env.resolve name with
  | some id => exact .pure id
  | none => exact .fail _ _

theorem Kept.declareIn (env : Environment) (name : String) (id : Nat) :
    Kept threads top (NetLang.declareIn env name id) := by
  unfold NetLang.declareIn
  cases env.declare name id with
  | some env => exact .pure env
  | none => exact .stop _

theorem Kept.slotOf (slot : Option Nat) :
    Kept threads top (NetLang.slotOf slot) := by
  cases slot with
  | some id => exact .pure id
  | none => exact .stop _

end Primitives

/-- What the fuel induction carries. -/
structure Evaluator.Keeps (given : Evaluator) : Prop where
  expression : ∀ threads point expression env,
    Kept threads False (given.expression point expression env)
  body : ∀ threads point body env,
    Kept threads True (given.body point body env)
  whileLoop : ∀ threads point test body env,
    Kept threads True (given.whileLoop point test body env)

section Expressions

variable {self : Evaluator} (keeps : self.Keeps)
include keeps

theorem kept_expressions (point : Point) (env : Environment) (i : Nat)
    (values : List Expr) :
    Kept threads False (expressions self point env i values) := by
  induction values generalizing i with
  | nil => exact .pure _
  | cons value rest induction =>
      exact (keeps.expression _ _ _ _).bind fun _ =>
        (induction _).bind fun _ => .pure _

theorem kept_objectFields (point : Point) (env : Environment) (i : Nat)
    (fields : List (String × Expr)) (values : SortedMap Value) :
    Kept threads False (objectFields self point env i fields values) := by
  induction fields generalizing i values with
  | nil => exact .pure _
  | cons field rest induction =>
      exact (keeps.expression _ _ _ _).bind fun _ => induction _ _

theorem kept_constructorFields (point : Point) (env : Environment)
    (definition : List TypeField) (i : Nat) (fields : List (String × Expr))
    (values : SortedMap Value) :
    Kept threads False
      (constructorFields self point env definition i fields values) := by
  induction fields generalizing i values with
  | nil => exact .pure _
  | cons field rest induction =>
      exact (keeps.expression _ _ _ _).bind fun _ => Kept.types.bind fun _ =>
        (Kept.check _ _ _).relocate.bind fun _ => induction _ _

theorem kept_construct (point : Point) (env : Environment)
    (name : String) (fields : List (String × Expr)) :
    Kept threads False (construct self point env name fields) := by
  refine Kept.types.bind fun types => ?_
  split
  · exact (Kept.attempt _ _).bind fun _ =>
      (kept_constructorFields keeps _ _ _ _ _ _).bind fun _ => .pure _
  · exact .fail _ _

omit keeps in
theorem kept_connect (point : Point) (transport : Transport)
    (protocol : Option String) (address : Value) :
    Kept threads False (connect point transport protocol address) := by
  unfold connect
  split
  · refine .ite (.fail _ _) ((Kept.lift _ _).bind fun _ => ?_)
    unfold openConfigured
    cases transport <;> exact .call _ _
  · exact .call _ _
  · exact .fail _ _

theorem kept_sendDestination (point : Point) (env : Environment)
    (destination : Option Expr) :
    Kept threads False (sendDestination self point env destination) := by
  cases destination with
  | none => exact .pure _
  | some destination =>
      refine (keeps.expression _ _ _ _).bind fun value => ?_
      split
      · exact .pure _
      · exact .fail _ _

theorem kept_request (point : Point) (env : Environment)
    (method : HttpMethod) (config : Option Expr) (url : Value) :
    Kept threads False (request self point env method config url) := by
  unfold request
  split
  · cases config with
    | some config =>
        exact (keeps.expression _ _ _ _).bind fun _ => .call _ _
    | none => exact (Kept.pure _).bind fun _ => .call _ _
  · exact .fail _ _

theorem kept_logical (point : Point) (env : Environment) (op : BinaryOp)
    (right : Expr) (left : Value) :
    Kept threads False (logical self point env op right left) := by
  refine (Kept.lift _ _).bind fun value => .ite (.pure _) ?_
  exact (keeps.expression _ _ _ _).bind fun _ =>
    (Kept.lift _ _).bind fun _ => .pure _

theorem kept_target (env : Environment) :
    ∀ point expression,
      Kept threads False (target self env point expression)
  | point, .located _ inner => (kept_target env point inner).withSpan
  | point, .identifier _ =>
      (Kept.tick point).bind fun _ =>
        (Kept.resolve _ _ _).bind fun _ => .pure _
  | point, .property object _ =>
      (Kept.tick point).bind fun _ =>
        (kept_target env _ object).bind fun _ => .pure _
  | point, .index object _ =>
      (Kept.tick point).bind fun _ =>
        (kept_target env _ object).bind fun _ =>
          (keeps.expression _ _ _ _).bind fun _ => .pure _
  | point, .construct _ _ | point, .connection _ _ _ | point, .send _ _ _
  | point, .receive _ | point, .request _ _ _ | point, .integer _
  | point, .float _ | point, .string _ | point, .boolean _ | point, .null
  | point, .duration _ | point, .array _ | point, .object _
  | point, .unary _ _ | point, .binary _ _ _ | point, .assignment _ _
  | point, .call _ _ => (Kept.tick point).bind fun _ => .fail _ _

omit keeps in
theorem kept_store (point : Point) (id : Nat) (selectors : List Selector)
    (value : Value) :
    Kept threads False (store point id selectors value) := by
  have checked : ∀ value : Value, Kept threads False (do
      checkBinding point id value
      write id value) :=
    fun _ => (Kept.checkBinding _ _ _).bind fun _ => .write _ _
  unfold store
  refine .ite (checked value) ?_
  refine (Kept.read point id).bind fun root => Kept.types.bind fun types => ?_
  exact (Kept.attempt _ _).bind fun _ => checked _

theorem kept_assign (point : Point) (env : Environment)
    (target value : Expr) (id : Nat) (selectors : List Selector) :
    Kept threads False
      (assign self point env target value id selectors) := by
  refine Kept.reported ?_ fun _ _ _ before after => ⟨before, after⟩
  exact (Kept.checkAssignable _ _).bind fun _ =>
    (keeps.expression _ _ _ _).bind fun _ =>
      Kept.bind (.observe fun _ orderly => orderly) fun _ =>
        (kept_store _ _ _ _).bind fun _ => .pure _

end Expressions

section Calls

variable [Formatting] {self : Evaluator} (keeps : self.Keeps)

omit [Formatting] in
theorem kept_callBuiltin (point : Point) (builtin : Builtin)
    (arguments : List Value) :
    Kept threads False (callBuiltin point builtin arguments) := by
  unfold callBuiltin
  refine .ite (.fail _ _) ?_
  split
  · exact .stop _
  · unfold setTimeout
    split
    · exact .ite ((Kept.call _ _).bind fun _ => .pure _) (.fail _ _)
    · exact .fail _ _
  · exact .call _ _
  · exact (Kept.call _ _).bind fun _ => .pure _
  · exact (Kept.call _ _).bind fun _ => .pure _
  · exact .lift _ _

omit [Formatting] in
theorem kept_bindParameters (point : Point) (parameters : List Parameter)
    (arguments : List Value) (bound : NameMap Nat) :
    Kept threads False
      (bindParameters point parameters arguments bound) := by
  induction parameters generalizing arguments bound with
  | nil =>
      unfold bindParameters
      exact .pure _
  | cons parameter parameters induction =>
      cases arguments with
      | nil => exact .pure _
      | cons value arguments =>
          exact (Kept.annotationType _).bind fun _ =>
            (Kept.check _ _ _).bind fun _ =>
              (Kept.allocate _).bind fun _ => induction _ _

omit [Formatting] in
theorem kept_finishCall (point : Point) (function : Function)
    (flow : Flow) : Kept threads top (finishCall point function flow) := by
  cases flow with
  | normal => exact (Kept.check _ _ _).relocate.bind fun _ => .pure _
  | «break» => exact .fail _ _
  | «continue» => exact .fail _ _
  | «return» value => exact .pure _

include keeps

omit [Formatting] in
theorem kept_enterFunction (point : Point) (function : Function)
    (parameters : NameMap Nat) :
    Kept threads False (enterFunction self point function parameters) := by
  refine Kept.reported ?_ fun _ _ _ before after => ⟨before, after⟩
  refine Kept.framed ?_
  exact (keeps.body _ _ _ _).bind fun _ => kept_finishCall _ _ _

omit [Formatting] in
theorem kept_callFunction (point : Point) (id : Nat)
    (arguments : List Value) :
    Kept threads False (callFunction self point id arguments) :=
  (Kept.function _ _ _).bind fun _ =>
    (kept_bindParameters _ _ _ _).bind fun _ =>
      kept_enterFunction keeps _ _ _

theorem kept_callValue (point : Point) (callee : Value)
    (arguments : List Value) :
    Kept threads False (callValue self point callee arguments) := by
  unfold callValue
  split
  · exact kept_callBuiltin _ _ _
  · exact (Kept.print _ _).bind fun _ => .pure _
  · exact kept_callFunction keeps _ _ _
  · exact .fail _ _

theorem kept_expressionInner (point : Point) (env : Environment)
    (node : Expr) :
    Kept threads False (expressionInner self point env node) := by
  cases node with
  | construct name fields => exact kept_construct keeps _ _ _ _
  | located span inner => exact .stop _
  | connection transport address protocol =>
      exact (keeps.expression _ _ _ _).bind fun _ => kept_connect _ _ _ _
  | send connection data destination =>
      exact (keeps.expression _ _ _ _).bind fun _ =>
        (keeps.expression _ _ _ _).bind fun _ =>
          (kept_sendDestination keeps _ _ _).bind fun _ => .call _ _
  | receive connection =>
      exact (keeps.expression _ _ _ _).bind fun _ => .call _ _
  | request method url config =>
      exact (keeps.expression _ _ _ _).bind fun _ =>
        kept_request keeps _ _ _ _ _
  | integer value => exact .pure _
  | float value => exact .pure _
  | string value => exact .pure _
  | boolean value => exact .pure _
  | null => exact .pure _
  | duration value => exact .pure _
  | identifier name => exact (Kept.resolve _ _ _).bind fun _ => .read _ _
  | array values =>
      exact (kept_expressions keeps _ _ _ _).bind fun _ => .pure _
  | object fields =>
      exact (kept_objectFields keeps _ _ _ _ _).bind fun _ => .pure _
  | unary operator operand =>
      exact (keeps.expression _ _ _ _).bind fun _ => .lift _ _
  | binary left op right =>
      refine (keeps.expression _ _ _ _).bind fun _ => .ite ?_ ?_
      · exact kept_logical keeps _ _ _ _ _
      · exact (keeps.expression _ _ _ _).bind fun _ => .attempt _ _
  | assignment left value =>
      exact (kept_target keeps _ _ _).bind fun _ =>
        kept_assign keeps _ _ _ _ _ _
  | call callee arguments =>
      exact (keeps.expression _ _ _ _).bind fun _ =>
        (kept_expressions keeps _ _ _ _).bind fun _ =>
          kept_callValue keeps _ _ _
  | property object name =>
      exact (keeps.expression _ _ _ _).bind fun _ => .lift _ _
  | index object subscript =>
      exact (keeps.expression _ _ _ _).bind fun _ =>
        (keeps.expression _ _ _ _).bind fun _ => .lift _ _

theorem kept_expression (point : Point) (env : Environment) (node : Expr) :
    Kept threads False (expression self point node env) := by
  refine expression_induction (fun _ _ inner => inner.withSpan)
    (fun node => ?_) node
  refine Kept.observed ?_ (fun _ prepared => prepared.orderly)
    fun _ _ _ before after => ⟨before, after⟩
  exact (Kept.tick _).bind fun _ =>
    (kept_expressionInner keeps _ _ _).nested

end Calls

section Parallel

variable {self : Evaluator} (keeps : self.Keeps)

theorem Worker.start_prepared (worker : Worker) :
    Prepared threads top worker.start := by
  refine ⟨⟨le_rfl, ?_⟩, (fun outside => nomatch outside), fun _ => rfl⟩
  rintro buffer ⟨⟩
  exact ⟨WorkerBuffer.accounted_empty _, rfl⟩

theorem kept_finishIteration (point : Point) (flow : Flow) :
    Kept threads top (finishIteration point flow) := by
  cases flow with
  | normal => exact .pure _
  | «continue» => exact .pure _
  | «break» => exact .fail _ _
  | «return» value => exact .fail _ _

theorem kept_joinOutcomes (point : Point) (jobs : List Worker)
    (ends : List WorkerEnd) :
    Kept threads top (joinOutcomes point jobs ends) := by
  induction jobs generalizing ends with
  | nil => exact .pure _
  | cons job jobs induction =>
      cases ends with
      | nil => exact .pure _
      | cons done ends =>
          refine Kept.bind ?_ fun _ => (induction ends).bind fun _ => .pure _
          cases done with
          | finished outcome => exact .pure _
          | panicked =>
              exact .ret _ _ (fun _ => rfl) (fun _ orderly => orderly) .refl
          | outOfFuel => exact .stop _

theorem kept_runThreads (point : Point) (jobs : List Worker)
    (allowed : threads) : Kept threads top (runThreads point jobs) := by
  have refuses : ∀ (started : Nat) (refusal : Option String),
      Kept threads top (refusedOutcome point jobs started refusal) := by
    intro started refusal
    cases refusal with
    | none => exact .pure _
    | some reason =>
        exact .ret _ _ (fun _ => rfl) (fun _ orderly => orderly) .refl
  have spawns : Kept threads top (Interp.spawn jobs) := by
    intro state prepared
    rw [wp_spawn]
    refine ⟨fun _ _ => allowed, fun reply _ => ⟨.refl _, prepared, ?_, ?_⟩⟩
    · intro _ _
      trivial
    · rintro _ ⟨⟩
  exact spawns.bind fun _ => (kept_joinOutcomes _ _ _).bind fun _ =>
    (refuses _ _).bind fun _ => .pure _

theorem kept_deliverLines (point : Point) (lines : List String) :
    Kept threads top (deliverLines point lines) := by
  induction lines with
  | nil => exact .pure _
  | cons line rest induction =>
      intro state prepared
      unfold wp deliverLines
      have printed : Kept threads top (Interp.print point line) :=
        .print point line
      refine (printed state prepared).bind ?_
      rintro ⟨result, after⟩ held
      rcases result with (error | _ | _) | _
      · exact ⟨held.rel, held.inv, fun _ _ => trivial, fun _ _ => trivial⟩
      · exact ⟨held.rel, held.inv, fun _ _ => trivial, fun _ _ => trivial⟩
      · exact ⟨held.rel, held.inv, fun _ _ => trivial, fun _ _ => trivial⟩
      · refine wp_mono (induction after held.inv) fun result last done => ?_
        exact ⟨held.rel.trans done.rel, done.inv, done.ok, done.error⟩

theorem kept_deliver (point : Point) (outcomes : List Outcome)
    (first : Option RuntimeError) :
    Kept threads top (deliver point outcomes first) := by
  induction outcomes generalizing first with
  | nil => exact .pure _
  | cons outcome rest induction =>
      exact (kept_deliverLines _ _).bind fun _ => induction _

theorem kept_prepare (point : Point) (job : Nat → Value → HostId → Worker)
    (i : Nat) (values : List Value) :
    Kept threads top (prepare point job i values) := by
  induction values generalizing i with
  | nil => exact .pure _
  | cons value rest induction =>
      exact (Kept.tick _).bind fun _ => (Kept.fork _).bind fun _ =>
        (induction _).bind fun _ => .pure _

include keeps

theorem executeWorker_orderly (worker : Worker) :
    (executeWorker self worker).Safe (orderly threads) fun _ => True := by
  have body : Kept threads True (iterationBody self worker) :=
    (Kept.allocate _).bind fun _ => (keeps.body _ _ _ _).bind fun _ =>
      kept_finishIteration _ _
  exact (body worker.start worker.start_prepared).bind fun _ _ => trivial

theorem kept_runInline (jobs : List Worker) :
    Kept threads top (runInline self jobs) := by
  induction jobs with
  | nil => exact .pure _
  | cons job rest induction =>
      refine Kept.bind ?_ fun _ => induction.bind fun _ => .pure _
      intro state prepared
      refine (executeWorker_orderly keeps job).bind fun result _ => ?_
      exact ⟨.refl _, prepared, fun _ _ => trivial, fun _ _ => trivial⟩

theorem kept_runJobs (point : Point) (jobs : List Worker) :
    Kept threads top (runJobs self point jobs) := by
  intro state
  refine runs_get fun prepared => ?_
  split
  · exact kept_runInline keeps jobs state
  · next outside =>
      exact kept_runThreads point jobs
        (prepared.threads (by simpa using outside)) state

theorem kept_batches (point : Point) (job : Nat → Value → HostId → Worker)
    (width batch : Nat) (values : List (List Value)) :
    Kept threads top (batches self point job width batch values) := by
  induction values generalizing batch with
  | nil => exact .pure _
  | cons values rest induction =>
      refine (kept_prepare _ _ _ _).bind fun _ =>
        (kept_runJobs keeps _ _).bind fun _ =>
          (kept_deliver _ _ _).bind fun first => Kept.bind ?_ fun _ =>
            induction _
      cases first with
      | none => exact .pure _
      | some error => exact .stop _

theorem kept_parallel [Formatting] (point : Point) (env : Environment)
    (variableName : String) (iterable : Expr) (body : Stmt) :
    Kept threads top
      (parallel self point env variableName iterable body) := by
  refine (keeps.expression _ _ _ _).atTop.bind fun values => ?_
  split
  · exact .pure _
  · refine Kept.reported ?_ fun _ _ _ before after => ⟨before, after⟩
    exact Kept.get fun _ => kept_batches keeps _ _ _ _ _
  · exact .fail _ _

end Parallel

section Statements

variable [Formatting] {self : Evaluator} (keeps : self.Keeps)

omit [Formatting] in
theorem kept_reserve (list : List Stmt) (env : Environment) :
    Kept threads top (reserve list env) := by
  induction list generalizing env with
  | nil => exact .pure _
  | cons node rest induction =>
      unfold reserve
      split
      · exact (Kept.annotationType _).bind fun _ =>
          (Kept.allocate _).bind fun _ => (induction _).bind fun _ => .pure _
      · exact (Kept.allocate _).bind fun _ =>
          (Kept.declareIn _ _ _).bind fun _ =>
            (induction _).bind fun _ => .pure _
      · exact (induction _).bind fun _ => .pure _

omit [Formatting] in
theorem kept_defineFunction (function : Option ResolvedType → Function)
    (returnAnnotated : Option TypeAnnotation) (slot : Nat) :
    Kept threads top (defineFunction function returnAnnotated slot) := by
  refine (Kept.annotationType _).bind fun _ => Kept.get fun _ => ?_
  refine Kept.bind ?_ fun _ => .write _ _
  exact .ret _ _ (fun _ => rfl)
    (fun _ orderly => ⟨orderly.inside, orderly.accounted⟩)
    fun _ => ⟨rfl, rfl⟩

omit [Formatting] in
theorem kept_declareFunctions (point : Point) (i : Nat)
    (list : List (Stmt × Option Nat)) (env : Environment) :
    Kept threads top (declareFunctions point i list env) := by
  induction list generalizing i env with
  | nil => exact .pure _
  | cons entry rest induction =>
      unfold declareFunctions
      split
      · exact (Kept.slotOf _).bind fun _ =>
          (Kept.declareIn _ _ _).bind fun _ => induction _ _
      · exact (Kept.slotOf _).bind fun _ =>
          (kept_defineFunction _ _ _).bind fun _ => induction _ _
      · exact induction _ _

include keeps

omit [Formatting] in
theorem kept_condition (point : Point) (test : Expr) (env : Environment) :
    Kept threads True (condition self point test env) :=
  (keeps.expression _ _ _ _).atTop.bind fun _ => (Kept.lift _ _).relocate

omit [Formatting] in
theorem kept_scopedBody (point : Point) (body : Stmt) (env : Environment) :
    Kept threads True (scopedBody self point body env) :=
  (keeps.body _ _ _ _).bind fun _ => .pure _

omit [Formatting] in
theorem kept_whileLoop (point : Point) (test : Expr) (body : Stmt)
    (env : Environment) :
    Kept threads True (whileLoop self point test body env) := by
  refine (kept_condition keeps _ _ _).bind fun _ => .ite ?_ (.pure _)
  refine (kept_scopedBody keeps _ _ _).bind fun flow => ?_
  split
  · exact .pure _
  · exact .pure _
  · exact keeps.whileLoop _ _ _ _ _

omit [Formatting] in
theorem kept_forLoop (point : Point) (variableName : String)
    (body : Stmt) (env : Environment) (values : List Value) :
    Kept threads True (forLoop self point variableName body env values) := by
  induction values with
  | nil => exact .pure _
  | cons value rest induction =>
      refine (Kept.tick _).bind fun _ => (Kept.allocate _).bind fun _ =>
        (keeps.body _ _ _ _).bind fun (flow, _) => ?_
      cases flow with
      | normal => exact induction
      | «continue» => exact induction
      | «break» => exact .pure _
      | «return» value => exact .pure _

omit [Formatting] in
theorem kept_matchArms (point : Point) (env : Environment) (value : Value)
    (i : Nat) (arms : List (Pattern × Stmt)) :
    Kept threads True (matchArms self point env value i arms) := by
  induction arms generalizing i with
  | nil => exact .pure _
  | cons arm rest induction =>
      exact .ite (kept_scopedBody keeps _ _ _) (induction _)

theorem kept_statement (point : Point) (env : Environment) :
    ∀ node, Kept threads True (statement self point node env)
  | .type _ _ | .break | .continue | .function _ _ _ _ => .pure _
  | .located _ inner => (kept_statement point env inner).withSpan
  | .let _ _ _ => .stop _
  | .expression _ => (keeps.expression _ _ _ _).atTop.bind fun _ => .pure _
  | .block _ => kept_scopedBody keeps _ _ _
  | .return value => by
      refine Kept.location.bind fun _ => Kept.bind ?_ fun _ =>
        (Kept.checkReturn _ _).relocate.bind fun _ => .pure _
      cases value with
      | some value => exact (keeps.expression _ _ _ _).atTop
      | none => exact .pure _
  | .if _ _ elseBranch => by
      refine (kept_condition keeps _ _ _).bind fun _ =>
        .ite (kept_scopedBody keeps _ _ _) ?_
      cases elseBranch with
      | some branch => exact kept_scopedBody keeps _ _ _
      | none => exact .pure _
  | .while _ _ => keeps.whileLoop _ _ _ _ _
  | .for _ _ _ => by
      refine (keeps.expression _ _ _ _).atTop.bind fun values => ?_
      split
      · exact kept_forLoop keeps _ _ _ _ _
      · exact .fail _ _
  | .match _ _ => (keeps.expression _ _ _ _).atTop.bind fun _ =>
      kept_matchArms keeps _ _ _ _ _
  | .parallel _ _ _ =>
      (kept_parallel keeps _ _ _ _ _).bind fun _ => .pure _

omit [Formatting] in
theorem kept_executeLet (point : Point) (name : String) (value : Expr)
    (slot : Option Nat) (env : Environment) :
    Kept threads True (executeLet self point name value slot env) :=
  Kept.location.bind fun _ => (keeps.expression _ _ _ _).atTop.bind fun _ =>
    (Kept.slotOf _).bind fun _ => (Kept.checkBinding _ _ _).relocate.bind
      fun _ => (Kept.write _ _).bind fun _ =>
        (Kept.declareIn _ _ _).bind fun _ => .pure _

/-- Every statement is executed at the top. -/
theorem kept_execute (point : Point) (node : Stmt) (slot : Option Nat)
    (env : Environment) :
    Kept threads True (execute self point node slot env) := by
  refine Kept.withSpan (Kept.observed ?_
    (fun _ prepared => ⟨prepared.orderly, prepared.top trivial⟩)
    fun _ _ _ before after => ⟨before, after⟩)
  refine (Kept.tick _).bind fun _ => ?_
  unfold executeUnlocated
  split
  · exact kept_executeLet keeps _ _ _ _ _
  · exact (kept_statement keeps _ _ _).bind fun _ => .pure _

theorem kept_executeAll (point : Point) (i : Nat)
    (list : List (Stmt × Option Nat)) (env : Environment) :
    Kept threads True (executeAll self point i list env) := by
  induction list generalizing i env with
  | nil => exact .pure _
  | cons entry rest induction =>
      refine (kept_execute keeps _ _ _ _).bind fun (flow, env) => ?_
      cases flow with
      | normal => exact induction _ _
      | «continue» => exact .pure _
      | «break» => exact .pure _
      | «return» value => exact .pure _

theorem kept_statements (point : Point) (list : List Stmt)
    (env : Environment) :
    Kept threads True (statements self point list env) :=
  (kept_reserve _ _).bind fun _ =>
    (kept_declareFunctions _ _ _ _).bind fun _ =>
      kept_executeAll keeps _ _ _ _

theorem kept_body (point : Point) (env : Environment) :
    ∀ node, Kept threads True (body self point node env)
  | .located _ inner => (kept_body point env inner).withSpan
  | .block _ => Kept.bind (.observe fun _ orderly => orderly) fun _ =>
      kept_statements keeps _ _ _
  | .type _ _ | .break | .continue | .parallel _ _ _ | .match _ _
  | .let _ _ _ | .expression _ | .if _ _ _ | .while _ _ | .for _ _ _
  | .function _ _ _ _ | .return _ =>
      Kept.bind (.observe fun _ orderly => orderly) fun _ =>
        kept_statements keeps _ _ _

end Statements

section Runs

variable [Formatting]

theorem Evaluator.Keeps.step {self : Evaluator} (keeps : self.Keeps) :
    self.step.Keeps where
  expression := fun _ point node env => kept_expression keeps point env node
  body := fun _ point node env => kept_body keeps point env node
  whileLoop := fun _ _ _ _ _ => kept_whileLoop keeps _ _ _ _

theorem evaluator_keeps (clock : Nat) : (evaluator clock).Keeps := by
  induction clock with
  | zero =>
      exact ⟨fun _ _ _ _ => .stop _, fun _ _ _ _ => .stop _,
        fun _ _ _ _ _ => .stop _⟩
  | succ clock induction => exact induction.step

theorem kept_runProgram (clock : Nat) (program : Program) :
    Kept threads True (runProgram (evaluator clock) program) := by
  have keeps := evaluator_keeps clock
  have mains : ∀ env,
      Kept threads True (callMain (evaluator clock) program env) := by
    intro env
    refine .ite ?_ (.pure _)
    split
    · exact .stop _
    · split
      · exact .pure _
      · refine (Kept.binding _).bind fun found => ?_
        split
        · exact (kept_callValue keeps _ _ _).atTop
        · exact .pure _
  unfold runProgram
  split
  · refine Kept.bind ?_ fun _ => .fail _ _
    exact .ret _ _ (fun _ => rfl)
      (fun _ orderly => ⟨orderly.inside, orderly.accounted⟩)
      fun _ => ⟨rfl, rfl⟩
  · exact (kept_statements keeps _ _ _).bind fun _ => mains _

omit [Formatting] in
theorem initialState_prepared (identity : Nat) (limits : Limits)
    (program : Program) :
    Prepared True top (initialState identity limits program) where
  orderly := ⟨Nat.zero_le _, fun _ known => nomatch known⟩
  threads := fun _ => trivial
  top := fun _ => rfl

theorem setup_orderly (host : Host effects) :
    (setup host).Meets (orderly True) where
  host := fun _ _ _ _ _ _ => trivial
  job := fun worker _ =>
    (executeWorker_orderly (evaluator_keeps _) worker).bind fun _ _ => trivial
  panicked := fun _ _ => trivial

/-- Every observation of every run is orderly. -/
theorem runOf_orderly (host : Host effects) (clock identity : Nat)
    (limits : Limits) (program : Program) (choices : List Nat) :
    ∀ note ∈ (runOf host clock identity limits program choices).shared.notes,
      note.Orderly := by
  have safe : (execution clock identity limits program).Safe (orderly True)
      fun _ => True := by
    have kept : Kept True True (runProgram (evaluator clock) program) :=
      kept_runProgram clock program
    exact (kept _ (initialState_prepared identity limits program)).mono
      fun _ _ => trivial
  exact (Machine.run_safe choices (setup_orderly host)
    (Machine.start_safe safe)).shared.notes

end Runs

end NetLang
