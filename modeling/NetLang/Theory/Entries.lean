import NetLang.Library.Credit
import NetLang.Theory.ControlFlow

/-!
# What the entries of bodies cost

A call enters the body of a function at most once, and the evaluation of the
call has been shown before.  The bodies of functions are those at the first
position below a point.
-/

namespace NetLang

open Interp

/-- The evaluation of a call begins. -/
def Observation.calls : Observation → Bool
  | .evaluating _ (.call _ _) _ _ => true
  | _ => false

/-- The body of a function is entered. -/
def Observation.entersFunction : Observation → Bool
  | .entering (0 :: _) _ _ => true
  | _ => false

/-- Calls pay for the bodies of functions. -/
def entryPrices : Prices effects :=
  ⟨Observation.calls, Observation.entersFunction⟩

/-- What it costs to enter a body. -/
def toll : Point → Nat
  | 0 :: _ => 1
  | _ => 0

theorem toll_entering (point : Point) (body : Stmt) (state : Interpreter) :
    (Observation.entersFunction (.entering point body state)).toNat =
      toll point := by
  cases point with
  | nil => rfl
  | cons i rest => cases i <;> rfl

namespace Interp

variable {α β : Type}

/-- A computation that needs no more than the given credit, and leaves what it
has been given besides. -/
def Costs (needs : Nat) (comp : Interp α) : Prop :=
  ∀ state credit, (comp state).Affords entryPrices
    (fun _ left => credit ≤ left) (credit + needs)

namespace Costs

variable {needs : Nat} {comp : Interp α}

theorem more (costs : Costs 0 comp) : Costs needs comp := by
  intro state credit
  exact (costs state (credit + needs)).mono fun _ left kept => by omega

theorem bind {f : α → Interp β} (first : Costs 0 comp)
    (rest : ∀ value, Costs needs (f value)) : Costs needs (comp >>= f) := by
  intro state credit
  refine Comp.Affords.bind ((first state (credit + needs)).mono ?_)
  rintro ⟨result, after⟩ left kept
  cases result with
  | error reason => exact (by omega : credit ≤ left)
  | ok value =>
      have affords := rest value after (left - needs)
      rw [Nat.sub_add_cancel (by omega)] at affords
      exact affords.mono fun _ last more => by omega

/-- What comes after a computation that costs something is free. -/
theorem andThen {f : α → Interp β} (first : Costs needs comp)
    (rest : ∀ value, Costs 0 (f value)) : Costs needs (comp >>= f) := by
  intro state credit
  refine Comp.Affords.bind ((first state credit).mono ?_)
  rintro ⟨result, after⟩ left kept
  cases result with
  | error reason => exact kept
  | ok value =>
      exact (rest value after left).mono fun _ last more => kept.trans more

/-- A computation that does nothing to its surroundings. -/
theorem instant (ends : ∀ state, ∃ outcome, comp state = .ret outcome) :
    Costs 0 comp := by
  intro state credit
  obtain ⟨outcome, same⟩ := ends state
  rw [same]
  exact Nat.le_refl _

theorem pure (value : α) : Costs 0 (Interp.pure value) :=
  fun _ _ => Nat.le_refl _

theorem stop (reason : Stop) : Costs 0 (Interp.stop reason : Interp α) :=
  fun _ _ => Nat.le_refl _

theorem fail (point : Point) (kind : ErrorKind) :
    Costs 0 (Interp.fail point kind : Interp α) :=
  fun _ _ => Nat.le_refl _

theorem lift (point : Point) (outcome : Except ErrorKind α) :
    Costs 0 (Interp.lift point outcome) := by
  cases outcome with
  | ok value => exact .pure value
  | error kind => exact .fail point kind

theorem attempt (point : Point) (outcome : Except Fault α) :
    Costs 0 (Interp.attempt point outcome) := by
  rcases outcome with ((kind | _) | value)
  · exact .fail point kind
  · exact .stop _
  · exact .pure value

theorem ite {condition : Prop} [Decidable condition] {yes no : Interp α}
    (first : Costs needs yes) (second : Costs needs no) :
    Costs needs (if condition then yes else no) := by
  split
  · exact first
  · exact second

theorem get {f : Interpreter → Interp β}
    (rest : ∀ state, Costs needs (f state)) :
    Costs needs (Interp.get >>= f) :=
  fun state credit => rest state state credit

theorem tick (point : Point) : Costs 0 (Interp.tick point) := by
  rintro state credit (_ | _)
  · exact Nat.le_refl _
  · exact Nat.le_refl _

theorem around {enter : Interpreter → Interpreter}
    {leave : Interpreter → Interpreter → Interpreter}
    (costs : Costs needs comp) :
    Costs needs (Interp.around enter leave comp) :=
  fun state credit => Comp.Affords.bind ((costs (enter state) credit).mono
    fun _ _ kept => kept)

theorem withSpan {span : Option Span} (costs : Costs needs comp) :
    Costs needs (Interp.withSpan span comp) :=
  costs.around

theorem relocate {locate : Option Span → Option Span}
    (costs : Costs needs comp) :
    Costs needs (Interp.relocate locate comp) := by
  intro state credit
  refine Comp.Affords.bind ((costs state credit).mono ?_)
  rintro ⟨result, after⟩ left kept
  rcases result with (error | _ | _) | value
  · exact kept
  · exact kept
  · exact kept
  · exact kept

theorem nested {point : Point} (costs : Costs needs comp) :
    Costs needs (Interp.nested point comp) := by
  intro state credit
  unfold Interp.nested
  split
  · exact (by omega : credit ≤ credit + needs)
  · exact costs.around state credit

/-- A free observation is shown after the computation. -/
theorem reported
    {note : Interpreter → Result α → Interpreter → Observation}
    (free : ∀ state result after,
      (note state result after).calls = false ∧
        (note state result after).entersFunction = false)
    (costs : Costs needs comp) : Costs needs (Interp.reported note comp) := by
  intro state credit
  refine Comp.Affords.bind ((costs state credit).mono ?_)
  rintro ⟨result, after⟩ left kept
  obtain ⟨unearned, unspent⟩ := free state result after
  exact ⟨left, by simp [entryPrices, unearned, unspent], kept⟩

/-- What is shown before a computation may pay for it. -/
theorem observed {before : Interpreter → Observation}
    {note : Interpreter → Result α → Interpreter → Observation}
    (pays : ∀ state, (before state).calls.toNat = needs ∧
      (before state).entersFunction = false)
    (free : ∀ state result after,
      (note state result after).calls = false ∧
        (note state result after).entersFunction = false)
    (costs : Costs needs comp) :
    Costs 0 (Interp.observed before note comp) := by
  intro state credit
  obtain ⟨earned, unspent⟩ := pays state
  refine ⟨credit + needs, by simp [entryPrices, earned, unspent], ?_⟩
  exact costs.reported free state credit

end Costs

section Operations

theorem costs_types : Costs 0 Interp.types :=
  .instant fun _ => ⟨_, rfl⟩

theorem costs_location : Costs 0 Interp.location :=
  .instant fun _ => ⟨_, rfl⟩

theorem costs_annotationType (annotated : Option TypeAnnotation) :
    Costs 0 (Interp.annotationType annotated) :=
  .instant fun _ => ⟨_, rfl⟩

theorem costs_allocate (binding : Binding) :
    Costs 0 (Interp.allocate binding) :=
  .instant fun _ => ⟨_, rfl⟩

theorem costs_modify (f : Interpreter → Interpreter) :
    Costs 0 (Interp.modify f) :=
  .instant fun _ => ⟨_, rfl⟩

theorem costs_binding (id : Nat) : Costs 0 (Interp.binding id) := by
  refine .instant fun state => ?_
  unfold Interp.binding
  split
  · exact ⟨_, rfl⟩
  · exact ⟨_, rfl⟩

theorem costs_write (id : Nat) (value : Value) :
    Costs 0 (Interp.write id value) := by
  refine .instant fun state => ?_
  unfold Interp.write
  split
  · exact ⟨_, rfl⟩
  · exact ⟨_, rfl⟩

theorem costs_read (point : Point) (id : Nat) :
    Costs 0 (Interp.read point id) := by
  refine (costs_binding id).bind fun binding => ?_
  split
  · exact .pure _
  · exact .fail _ _

theorem costs_check (point : Point) (expected : Option ResolvedType)
    (value : Value) : Costs 0 (Interp.check point expected value) :=
  fun state => Costs.attempt point (state.types.checkValueType expected value)
    state

theorem costs_checkBinding (point : Point) (id : Nat) (value : Value) :
    Costs 0 (Interp.checkBinding point id value) :=
  (costs_binding id).bind fun _ => costs_check _ _ _

theorem costs_checkReturn (point : Point) (value : Value) :
    Costs 0 (Interp.checkReturn point value) :=
  fun state => costs_check point state.returnType value state

theorem costs_checkAssignable (point : Point) (id : Nat) :
    Costs 0 (Interp.checkAssignable point id) := by
  refine (costs_binding id).bind fun _ => .ite (.fail _ _) ?_
  refine .instant fun state => ?_
  split
  · exact ⟨_, rfl⟩
  · exact ⟨_, rfl⟩

theorem costs_resolve (point : Point) (env : Environment) (name : String) :
    Costs 0 (Interp.resolve point env name) := by
  unfold Interp.resolve
  split
  · exact .pure _
  · exact .fail _ _

theorem costs_function (point : Point) (id given : Nat) :
    Costs 0 (Interp.function point id given) := by
  refine .instant fun state => ?_
  unfold Interp.function
  split
  · exact ⟨_, rfl⟩
  · split
    · exact ⟨_, rfl⟩
    · split
      · exact ⟨_, rfl⟩
      · exact ⟨_, rfl⟩

theorem costs_call (point : Point) (operation : HostCall) :
    Costs 0 (Interp.call point operation) := by
  rintro state credit (message | answer)
  · exact Nat.le_refl _
  · exact Nat.le_refl _

theorem costs_spawn (jobs : List Worker) : Costs 0 (Interp.spawn jobs) :=
  fun _ _ _ => Nat.le_refl _

theorem costs_print (point : Point) (text : String) :
    Costs 0 (Interp.print point text) := by
  intro state credit
  unfold Interp.print
  split
  · exact costs_call point _ state credit
  · split
    · exact Nat.le_refl _
    · exact Nat.le_refl _

theorem costs_fork (point : Point) : Costs 0 (Interp.fork point) :=
  (costs_call point .fork).bind fun _ => .instant fun _ => ⟨_, rfl⟩

theorem costs_storing (point : Point) (id : Nat) (selectors : List Selector)
    (value : Value) :
    Costs 0 (observe (.storing point id selectors value)) :=
  fun _ credit => ⟨credit, rfl, Nat.le_refl _⟩

/-- The entry of a body costs what its point says. -/
theorem costs_entering (point : Point) (body : Stmt) :
    Costs (toll point) (observe (.entering point body)) := by
  intro state credit
  refine ⟨credit, ?_, Nat.le_refl _⟩
  have cost := toll_entering point body state
  simp [entryPrices, Observation.calls, cost]

end Operations

end Interp

/-- What the fuel induction carries. -/
structure Evaluator.Pays (given : Evaluator) : Prop where
  expression : ∀ point node env,
    Costs 0 (given.expression point node env)
  body : ∀ point node env, Costs (toll point) (given.body point node env)
  whileLoop : ∀ point test node env,
    Costs 0 (given.whileLoop point test node env)

section Expressions

variable {self : Evaluator} (pays : self.Pays)
include pays

theorem costs_expressions (point : Point) (env : Environment) (i : Nat)
    (values : List Expr) : Costs 0 (expressions self point env i values) := by
  induction values generalizing i with
  | nil => exact .pure _
  | cons value rest induction =>
      exact (pays.expression _ _ _).bind fun _ =>
        (induction _).bind fun _ => .pure _

theorem costs_objectFields (point : Point) (env : Environment) (i : Nat)
    (fields : List (String × Expr)) (values : SortedMap Value) :
    Costs 0 (objectFields self point env i fields values) := by
  induction fields generalizing i values with
  | nil => exact .pure _
  | cons field rest induction =>
      exact (pays.expression _ _ _).bind fun _ => induction _ _

theorem costs_constructorFields (point : Point) (env : Environment)
    (definition : List TypeField) (i : Nat) (fields : List (String × Expr))
    (values : SortedMap Value) : Costs 0
      (constructorFields self point env definition i fields values) := by
  induction fields generalizing i values with
  | nil => exact .pure _
  | cons field rest induction =>
      exact (pays.expression _ _ _).bind fun _ => costs_types.bind fun _ =>
        (costs_check _ _ _).relocate.bind fun _ => induction _ _

theorem costs_construct (point : Point) (env : Environment) (name : String)
    (fields : List (String × Expr)) :
    Costs 0 (construct self point env name fields) := by
  refine costs_types.bind fun types => ?_
  split
  · exact (Costs.attempt _ _).bind fun _ =>
      (costs_constructorFields pays _ _ _ _ _ _).bind fun _ => .pure _
  · exact .fail _ _

omit pays in
theorem costs_connect (point : Point) (transport : Transport)
    (protocol : Option String) (address : Value) :
    Costs 0 (connect point transport protocol address) := by
  unfold connect
  split
  · refine .ite (.fail _ _) ((Costs.lift _ _).bind fun _ => ?_)
    unfold openConfigured
    split
    · exact costs_call _ _
    · exact costs_call _ _
  · exact costs_call _ _
  · exact .fail _ _

theorem costs_sendDestination (point : Point) (env : Environment)
    (destination : Option Expr) :
    Costs 0 (sendDestination self point env destination) := by
  cases destination with
  | none => exact .pure _
  | some destination =>
      refine (pays.expression _ _ _).bind fun value => ?_
      split
      · exact .pure _
      · exact .fail _ _

theorem costs_request (point : Point) (env : Environment)
    (method : HttpMethod) (config : Option Expr) (url : Value) :
    Costs 0 (request self point env method config url) := by
  unfold request
  split
  · cases config with
    | some config =>
        exact (pays.expression _ _ _).bind fun _ => costs_call _ _
    | none => exact (Costs.pure _).bind fun _ => costs_call _ _
  · exact .fail _ _

theorem costs_logical (point : Point) (env : Environment) (op : BinaryOp)
    (right : Expr) (left : Value) :
    Costs 0 (logical self point env op right left) := by
  refine (Costs.lift _ _).bind fun value => .ite (.pure _) ?_
  exact (pays.expression _ _ _).bind fun _ =>
    (Costs.lift _ _).bind fun _ => .pure _

theorem costs_target (env : Environment) (point : Point) (node : Expr) :
    Costs 0 (target self env point node) := by
  fun_induction target self env point node with
  | case1 point span node induction => exact induction.withSpan
  | case2 point name =>
      exact (Costs.tick point).bind fun _ =>
        (costs_resolve _ _ _).bind fun _ => .pure _
  | case3 point object name induction =>
      exact (Costs.tick point).bind fun _ => induction.bind fun _ => .pure _
  | case4 point object index induction =>
      exact (Costs.tick point).bind fun _ => induction.bind fun _ =>
        (pays.expression _ _ _).bind fun _ => .pure _
  | case5 => exact (Costs.tick _).bind fun _ => .fail _ _

omit pays in
theorem costs_store (point : Point) (id : Nat) (selectors : List Selector)
    (value : Value) : Costs 0 (store point id selectors value) := by
  unfold store
  split
  · exact (costs_checkBinding _ _ _).bind fun _ => costs_write _ _
  · exact (costs_read _ _).bind fun _ => costs_types.bind fun _ =>
      (Costs.attempt _ _).bind fun _ =>
        (costs_checkBinding _ _ _).bind fun _ => costs_write _ _

theorem costs_assign (point : Point) (env : Environment)
    (target value : Expr) (id : Nat) (selectors : List Selector) :
    Costs 0 (assign self point env target value id selectors) := by
  refine Costs.reported (fun _ _ _ => ⟨rfl, rfl⟩) ?_
  exact (costs_checkAssignable _ _).bind fun _ =>
    (pays.expression _ _ _).bind fun _ =>
      (costs_storing _ _ _ _).bind fun _ =>
        (costs_store _ _ _ _).bind fun _ => .pure _

end Expressions

section Calls

variable [Formatting] {self : Evaluator} (pays : self.Pays)

omit [Formatting] in
theorem costs_callBuiltin (point : Point) (builtin : Builtin)
    (arguments : List Value) :
    Costs 0 (callBuiltin point builtin arguments) := by
  unfold callBuiltin
  refine .ite (.fail _ _) ?_
  split
  · exact .stop _
  · unfold setTimeout
    split
    · exact .ite ((costs_call _ _).bind fun _ => .pure _) (.fail _ _)
    · exact .fail _ _
  · exact costs_call _ _
  · exact (costs_call _ _).bind fun _ => .pure _
  · exact (costs_call _ _).bind fun _ => .pure _
  · exact .lift _ _

omit [Formatting] in
theorem costs_bindParameters (point : Point) (parameters : List Parameter)
    (arguments : List Value) (bound : NameMap Nat) :
    Costs 0 (bindParameters point parameters arguments bound) := by
  fun_induction bindParameters point parameters arguments bound with
  | case1 parameter parameters value arguments bound induction =>
      exact (costs_annotationType _).bind fun _ =>
        (costs_check _ _ _).bind fun _ =>
          (costs_allocate _).bind fun id => induction id
  | case2 => exact .pure _

omit [Formatting] in
theorem costs_finishCall (point : Point) (function : Function)
    (flow : Flow) : Costs 0 (finishCall point function flow) := by
  cases flow with
  | normal => exact (costs_check _ _ _).relocate.bind fun _ => .pure _
  | «break» => exact .fail _ _
  | «continue» => exact .fail _ _
  | «return» value => exact .pure _

include pays

omit [Formatting] in
/-- A call enters one body. -/
theorem costs_enterFunction (point : Point) (function : Function)
    (parameters : NameMap Nat) :
    Costs 1 (enterFunction self point function parameters) := by
  refine Costs.reported (fun _ _ _ => ⟨rfl, rfl⟩) (Costs.around ?_)
  exact (pays.body (0 :: function.point) _ _).andThen
    fun _ => costs_finishCall _ _ _

theorem costs_callValue (point : Point) (callee : Value)
    (arguments : List Value) :
    Costs 1 (callValue self point callee arguments) := by
  unfold callValue
  split
  · exact (costs_callBuiltin _ _ _).more
  · exact ((costs_print _ _).bind fun _ => .pure _).more
  · exact (costs_function _ _ _).bind fun _ =>
      (costs_bindParameters _ _ _ _).bind fun _ =>
        costs_enterFunction pays _ _ _
  · exact (Costs.fail _ _).more

/-- Only a call needs credit. -/
theorem costs_expressionInner (point : Point) (env : Environment)
    (node : Expr) (state : Interpreter) :
    Costs (Observation.calls (.evaluating point node env state)).toNat
      (expressionInner self point env node) := by
  cases node with
  | construct name fields => exact costs_construct pays _ _ _ _
  | located span inner => exact .stop _
  | connection transport address protocol =>
      exact (pays.expression _ _ _).bind fun _ => costs_connect _ _ _ _
  | send connection data destination =>
      exact (pays.expression _ _ _).bind fun _ =>
        (pays.expression _ _ _).bind fun _ =>
          (costs_sendDestination pays _ _ _).bind fun _ => costs_call _ _
  | receive connection =>
      exact (pays.expression _ _ _).bind fun _ => costs_call _ _
  | request method url config =>
      exact (pays.expression _ _ _).bind fun _ =>
        costs_request pays _ _ _ _ _
  | integer value => exact .pure _
  | float value => exact .pure _
  | string value => exact .pure _
  | boolean value => exact .pure _
  | null => exact .pure _
  | duration value => exact .pure _
  | identifier name =>
      exact (costs_resolve _ _ _).bind fun _ => costs_read _ _
  | array values =>
      exact (costs_expressions pays _ _ _ _).bind fun _ => .pure _
  | object fields =>
      exact (costs_objectFields pays _ _ _ _ _).bind fun _ => .pure _
  | unary operator operand =>
      exact (pays.expression _ _ _).bind fun _ => .lift _ _
  | binary left op right =>
      refine (pays.expression _ _ _).bind fun _ => .ite ?_ ?_
      · exact costs_logical pays _ _ _ _ _
      · exact (pays.expression _ _ _).bind fun _ => .attempt _ _
  | assignment left value =>
      exact (costs_target pays _ _ _).bind fun _ =>
        costs_assign pays _ _ _ _ _ _
  | call callee arguments =>
      exact (pays.expression _ _ _).bind fun _ =>
        (costs_expressions pays _ _ _ _).bind fun _ =>
          costs_callValue pays _ _ _
  | property object name =>
      exact (pays.expression _ _ _).bind fun _ => .lift _ _
  | index object subscript =>
      exact (pays.expression _ _ _).bind fun _ =>
        (pays.expression _ _ _).bind fun _ => .lift _ _

theorem costs_expressionNode (point : Point) (env : Environment)
    (node : Expr) : Costs 0 (expressionNode self point env node) := by
  refine fun state => Costs.observed (fun other => ⟨?_, rfl⟩)
    (fun _ _ _ => ⟨rfl, rfl⟩) ((Costs.tick point).bind fun _ =>
      (costs_expressionInner pays point env node state).nested) state
  cases node with
  | _ => rfl

theorem costs_expression (point : Point) (node : Expr) (env : Environment) :
    Costs 0 (expression self point node env) :=
  expression_induction (fun _ _ inner => inner.withSpan)
    (costs_expressionNode pays point env) node

end Calls

section Statements

variable [Formatting] {self : Evaluator} (pays : self.Pays)

omit [Formatting] in
theorem costs_finishIteration (point : Point) (flow : Flow) :
    Costs 0 (finishIteration point flow) := by
  cases flow with
  | normal => exact .pure _
  | «continue» => exact .pure _
  | «break» => exact .fail _ _
  | «return» value => exact .fail _ _

omit [Formatting] in
theorem costs_runThreads (point : Point) (jobs : List Worker) :
    Costs 0 (runThreads point jobs) := by
  have joins : ∀ (jobs : List Worker) (ends : List WorkerEnd),
      Costs 0 (joinOutcomes point jobs ends) := by
    intro jobs ends
    fun_induction joinOutcomes point jobs ends with
    | case1 job jobs done ends induction =>
        refine Costs.bind ?_ fun _ => induction.bind fun _ => .pure _
        cases done with
        | finished outcome => exact .pure _
        | panicked => exact .instant fun _ => ⟨_, rfl⟩
        | outOfFuel => exact .stop _
    | case2 => exact .pure _
  have refuses : ∀ (started : Nat) (refusal : Option String),
      Costs 0 (refusedOutcome point jobs started refusal) := by
    intro started refusal
    cases refusal with
    | none => exact .pure _
    | some reason => exact .instant fun _ => ⟨_, rfl⟩
  exact (costs_spawn jobs).bind fun _ => (joins _ _).bind fun _ =>
    (refuses _ _).bind fun _ => .pure _

omit [Formatting] in
theorem costs_deliverLines (point : Point) (lines : List String) :
    Costs 0 (deliverLines point lines) := by
  induction lines with
  | nil => exact .pure _
  | cons line rest induction =>
      intro state credit
      refine Comp.Affords.bind ((costs_print point line state credit).mono ?_)
      rintro ⟨result, after⟩ left kept
      rcases result with (error | _ | _) | _
      · exact kept
      · exact kept
      · exact kept
      · exact (induction after left).mono fun _ last more => kept.trans more

omit [Formatting] in
theorem costs_deliver (point : Point) (outcomes : List Outcome)
    (first : Option RuntimeError) :
    Costs 0 (deliver point outcomes first) := by
  induction outcomes generalizing first with
  | nil => exact .pure _
  | cons outcome rest induction =>
      exact (costs_deliverLines _ _).bind fun _ => induction _

omit [Formatting] in
theorem costs_prepare (point : Point) (job : Nat → Value → HostId → Worker)
    (i : Nat) (values : List Value) :
    Costs 0 (prepare point job i values) := by
  induction values generalizing i with
  | nil => exact .pure _
  | cons value rest induction =>
      exact (Costs.tick _).bind fun _ => (costs_fork _).bind fun _ =>
        (induction _).bind fun _ => .pure _

include pays

omit [Formatting] in
theorem executeWorker_affords (worker : Worker) (credit : Nat) :
    (executeWorker self worker).Affords entryPrices
      (fun _ left => credit ≤ left) credit := by
  have costs : Costs 0 (iterationBody self worker) :=
    (costs_allocate _).bind fun _ =>
      (pays.body (1 :: worker.point) _ _).bind fun _ =>
        costs_finishIteration _ _
  exact Comp.Affords.bind ((costs worker.start credit).mono
    fun _ _ kept => kept)

omit [Formatting] in
theorem costs_runInline (jobs : List Worker) :
    Costs 0 (runInline self jobs) := by
  induction jobs with
  | nil => exact .pure _
  | cons job rest induction =>
      refine Costs.bind (fun state credit => ?_) fun _ =>
        induction.bind fun _ => .pure _
      exact Comp.Affords.bind ((executeWorker_affords pays job credit).mono
        fun _ _ kept => kept)

omit [Formatting] in
theorem costs_batches (point : Point) (job : Nat → Value → HostId → Worker)
    (width batch : Nat) (values : List (List Value)) :
    Costs 0 (batches self point job width batch values) := by
  have runs : ∀ jobs, Costs 0 (runJobs self point jobs) := fun jobs =>
    .get fun _ => .ite (costs_runInline pays jobs) (costs_runThreads _ _)
  induction values generalizing batch with
  | nil => exact .pure _
  | cons values rest induction =>
      refine (costs_prepare _ _ _ _).bind fun _ => (runs _).bind fun _ =>
        (costs_deliver _ _ _).bind fun first => Costs.bind ?_ fun _ =>
          induction _
      cases first with
      | none => exact .pure _
      | some error => exact .stop _

theorem costs_parallel (point : Point) (env : Environment)
    (variableName : String) (iterable : Expr) (body : Stmt) :
    Costs 0 (parallel self point env variableName iterable body) := by
  refine (pays.expression _ _ _).bind fun values => ?_
  split
  · exact .pure _
  · exact Costs.reported (fun _ _ _ => ⟨rfl, rfl⟩)
      (.get fun _ => costs_batches pays _ _ _ _ _)
  · exact .fail _ _

omit [Formatting] in
theorem costs_scopedBody (i : Nat) (point : Point) (body : Stmt)
    (env : Environment) :
    Costs 0 (scopedBody self ((i + 1) :: point) body env) := by
  have free : Costs 0 (self.body ((i + 1) :: point) body ([] :: env)) :=
    pays.body _ _ _
  exact free.bind fun _ => .pure _

omit [Formatting] in
theorem costs_condition (point : Point) (test : Expr) (env : Environment) :
    Costs 0 (condition self point test env) :=
  (pays.expression _ _ _).bind fun _ => (Costs.lift _ _).relocate

omit [Formatting] in
theorem costs_whileLoop (point : Point) (test : Expr) (body : Stmt)
    (env : Environment) : Costs 0 (whileLoop self point test body env) := by
  refine (costs_condition pays _ _ _).bind fun _ => .ite ?_ (.pure _)
  refine (costs_scopedBody pays 0 point body env).bind fun flow => ?_
  split
  · exact .pure _
  · exact .pure _
  · exact pays.whileLoop _ _ _ _

omit [Formatting] in
theorem costs_forLoop (point : Point) (variableName : String) (body : Stmt)
    (env : Environment) (values : List Value) :
    Costs 0 (forLoop self point variableName body env values) := by
  induction values with
  | nil => exact .pure _
  | cons value rest induction =>
      refine (Costs.tick _).bind fun _ => (costs_allocate _).bind fun _ =>
        (pays.body (1 :: point) _ _).bind fun (flow, _) => ?_
      cases flow with
      | normal => exact induction
      | «continue» => exact induction
      | «break» => exact .pure _
      | «return» value => exact .pure _

omit [Formatting] in
theorem costs_matchArms (point : Point) (env : Environment) (value : Value)
    (i : Nat) (arms : List (Pattern × Stmt)) :
    Costs 0 (matchArms self point env value (i + 1) arms) := by
  induction arms generalizing i with
  | nil => exact .pure _
  | cons arm rest induction =>
      exact .ite (costs_scopedBody pays _ _ _ _) (induction _)

theorem costs_statement (point : Point) (env : Environment) :
    ∀ node, Costs 0 (statement self point node env)
  | .type _ _ | .break | .continue | .function _ _ _ _ => .pure _
  | .located _ inner => (costs_statement point env inner).withSpan
  | .let _ _ _ => .stop _
  | .expression _ => (pays.expression _ _ _).bind fun _ => .pure _
  | .block _ => costs_scopedBody pays 0 point _ _
  | .return value => by
      refine costs_location.bind fun _ => Costs.bind ?_ fun _ =>
        (costs_checkReturn _ _).relocate.bind fun _ => .pure _
      cases value with
      | some value => exact pays.expression _ _ _
      | none => exact .pure _
  | .if _ _ elseBranch => by
      refine (costs_condition pays _ _ _).bind fun _ =>
        .ite (costs_scopedBody pays 0 point _ _) ?_
      cases elseBranch with
      | some branch => exact costs_scopedBody pays 1 point _ _
      | none => exact .pure _
  | .while _ _ => pays.whileLoop _ _ _ _
  | .for _ _ _ => by
      refine (pays.expression _ _ _).bind fun values => ?_
      split
      · exact costs_forLoop pays _ _ _ _ _
      · exact .fail _ _
  | .match _ _ => (pays.expression _ _ _).bind fun _ =>
      costs_matchArms pays _ _ _ 0 _
  | .parallel _ _ _ =>
      (costs_parallel pays _ _ _ _ _).bind fun _ => .pure _

end Statements

section Bodies

variable [Formatting] {self : Evaluator} (pays : self.Pays)

omit [Formatting] in
theorem costs_slotOf (slot : Option Nat) : Costs 0 (slotOf slot) := by
  cases slot with
  | some id => exact .pure id
  | none => exact .stop _

omit [Formatting] in
theorem costs_declareIn (env : Environment) (name : String) (id : Nat) :
    Costs 0 (declareIn env name id) := by
  unfold declareIn
  split
  · exact .pure _
  · exact .stop _

omit [Formatting] in
theorem costs_reserve (list : List Stmt) (env : Environment) :
    Costs 0 (reserve list env) := by
  induction list generalizing env with
  | nil => exact .pure _
  | cons node rest induction =>
      unfold reserve
      split
      · exact (costs_annotationType _).bind fun _ =>
          (costs_allocate _).bind fun _ => (induction _).bind fun _ => .pure _
      · exact (costs_allocate _).bind fun _ =>
          (costs_declareIn _ _ _).bind fun _ =>
            (induction _).bind fun _ => .pure _
      · exact (induction _).bind fun _ => .pure _

omit [Formatting] in
theorem costs_declareFunctions (point : Point) (i : Nat)
    (list : List (Stmt × Option Nat)) (env : Environment) :
    Costs 0 (declareFunctions point i list env) := by
  induction list generalizing i env with
  | nil => exact .pure _
  | cons entry rest induction =>
      unfold declareFunctions
      split
      · exact (costs_slotOf _).bind fun _ => (costs_declareIn _ _ _).bind
          fun _ => induction _ _
      · refine (costs_slotOf _).bind fun _ => Costs.bind ?_ fun _ =>
          induction _ _
        exact (costs_annotationType _).bind fun _ => .get fun _ =>
          (costs_modify _).bind fun _ => costs_write _ _
      · exact induction _ _

include pays

theorem costs_execute (point : Point) (node : Stmt) (slot : Option Nat)
    (env : Environment) : Costs 0 (execute self point node slot env) := by
  refine Costs.withSpan (Costs.observed (fun _ => ⟨rfl, rfl⟩)
    (fun _ _ _ => ⟨rfl, rfl⟩) ((Costs.tick point).bind fun _ => ?_))
  unfold executeUnlocated
  split
  · exact costs_location.bind fun _ => (pays.expression _ _ _).bind fun _ =>
      (costs_slotOf _).bind fun _ =>
        (costs_checkBinding _ _ _).relocate.bind fun _ =>
          (costs_write _ _).bind fun _ =>
            (costs_declareIn _ _ _).bind fun _ => .pure _
  · exact (costs_statement pays _ _ _).bind fun _ => .pure _

theorem costs_statements (point : Point) (list : List Stmt)
    (env : Environment) : Costs 0 (statements self point list env) := by
  have executes : ∀ (i : Nat) (list : List (Stmt × Option Nat)) env,
      Costs 0 (executeAll self point i list env) := by
    intro i list
    induction list generalizing i with
    | nil => exact fun _ => .pure _
    | cons entry rest induction =>
        intro env
        refine (costs_execute pays _ _ _ _).bind fun (flow, env) => ?_
        cases flow with
        | normal => exact induction _ _
        | «continue» => exact .pure _
        | «break» => exact .pure _
        | «return» value => exact .pure _
  exact (costs_reserve _ _).bind fun _ =>
    (costs_declareFunctions _ _ _ _).bind fun _ => executes _ _ _

theorem costs_body (point : Point) (node : Stmt) (env : Environment) :
    Costs (toll point) (body self point node env) := by
  fun_induction body self point node env with
  | case1 span inner env induction => exact induction.withSpan
  | case2 list env =>
      exact (costs_entering _ _).andThen fun _ => costs_statements pays _ _ _
  | case3 node env =>
      exact (costs_entering _ _).andThen fun _ => costs_statements pays _ _ _

omit self pays in
theorem evaluator_pays (clock : Nat) : (evaluator clock).Pays := by
  induction clock with
  | zero =>
      exact ⟨fun _ _ _ => .stop _, fun _ _ _ => (Costs.stop _).more,
        fun _ _ _ _ => .stop _⟩
  | succ clock induction =>
      exact ⟨costs_expression induction, costs_body induction,
        costs_whileLoop induction⟩

omit self pays in
/-- At every moment of a run at most one more function has been entered than
calls have been begun, for `main` is called automatically. -/
theorem run_pays (host : Host effects) (clock identity : Nat)
    (limits : Limits) (program : Program) (choices : List Nat) :
    let notes := (runOf host clock identity limits program
      choices).shared.notes
    notes.countP Observation.entersFunction ≤
      notes.countP Observation.calls + 1 := by
  have main : Costs 1 (runStatements (evaluator clock) program) := by
    refine (costs_statements (evaluator_pays clock) _ _ _).bind
      fun (_, env) => .ite ?_ (Costs.pure _).more
    split
    · exact (Costs.stop _).more
    · split
      · exact (Costs.pure _).more
      · refine (costs_binding _).bind fun found => ?_
        split
        · exact costs_callValue (evaluator_pays clock) _ _ _
        · exact (Costs.pure _).more
  have whole : Costs 1 (runProgram (evaluator clock) program) := by
    unfold runProgram
    split
    · exact ((costs_modify _).bind fun _ => .fail _ _).more
    · exact main
  have jobs : ∀ worker, (workerThread worker).Affords entryPrices
      (fun _ _ => True) 0 := fun worker => Comp.Affords.bind
    ((executeWorker_affords (evaluator_pays _) worker 0).mono
      fun _ _ _ => trivial)
  have start := (whole (initialState identity limits program) 0).mono
    fun _ _ _ => trivial
  exact (Machine.run_solvent jobs choices
    (Machine.start_solvent limits.steps start)).count

end Bodies

end NetLang
