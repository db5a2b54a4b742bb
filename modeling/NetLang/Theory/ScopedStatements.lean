import NetLang.Theory.Jumps
import NetLang.Theory.ScopedExpressions

/-!
# Scoped statements

The functions of a list are hoisted as the analyzer declares them, each
statement is executed in the scopes in which it was analyzed, and workers
start in the scopes of the body they run.
-/

namespace NetLang

open Interp Discipline

variable {final : Analyzer} {static : Static} {env : Environment}
  {state : Interpreter} {point : Point}

section Hoisting

variable (single : ¬ final.Reports .duplicateDeclaration)

theorem passed_of_let {node : Stmt} {name : String}
    {annotated : Option TypeAnnotation} {value : Expr}
    (shape : node.unspanned = .let name annotated value) (static : Static) :
    static.passed node = static.declared name
      (.variable (Analyzer.annotationType static annotated)) := by
  simp [Static.passed, shape]

theorem passed_of_other {node : Stmt}
    (other : ∀ name annotated value,
      node.unspanned ≠ .let name annotated value) (static : Static) :
    static.passed node = static := by
  unfold Static.passed
  split
  · next name annotated value shape =>
      exact absurd shape (other name annotated value)
  · rfl

/-- What hoisting adds to the arenas, from the given positions on. -/
structure Hoisted (state : Interpreter) (types : TypeRegistry)
    (point : Point) (outer : Environment) (i next handle : Nat)
    (list : List Stmt) (scope : NameMap Nat) : Prop where
  bindings : ∀ (j : Nat) binding,
    (declaredBindings types handle list)[j]? = some binding →
      state.bindings[next + j]? = some binding
  functions : ∀ (j : Nat) function,
    (declaredFunctions types point outer i next list scope)[j]? =
      some function → state.functions[handle + j]? = some function

section Steps

variable {types : TypeRegistry} {outer : Environment} {i next handle : Nat}
  {node : Stmt} {list : List Stmt} {scope : NameMap Nat}

theorem Hoisted.let {name : String} {annotated : Option TypeAnnotation}
    {value : Expr}
    (hoisted : Hoisted state types point outer i next handle (node :: list)
      scope)
    (shape : node.unspanned = .let name annotated value) :
    state.bindings[next]? =
        some ⟨resolveAnnotated types annotated, none, true⟩ ∧
      Hoisted state types point outer (i + 1) (next + 1) handle list
        (NameMap.insert scope name next) := by
  obtain ⟨bindings, functions⟩ := hoisted
  simp only [declaredBindings, shape] at bindings
  simp only [declaredFunctions, shape] at functions
  refine ⟨bindings 0 _ rfl, ?_, functions⟩
  intro j binding found
  have later := bindings (j + 1) binding (by simpa using found)
  rw [Nat.add_assoc, Nat.add_comm 1 j]
  exact later

theorem Hoisted.function {name : String} {parameters : List Parameter}
    {returnAnnotated : Option TypeAnnotation} {body : Stmt}
    (hoisted : Hoisted state types point outer i next handle (node :: list)
      scope)
    (shape : node.unspanned =
      .function name parameters returnAnnotated body) :
    state.bindings[next]? = some ⟨none, some (.function handle), false⟩ ∧
      state.functions[handle]? = some ⟨name, parameters,
        resolveAnnotated types returnAnnotated,
        (returnAnnotated.bind TypeAnnotation.span).or node.span, body,
        scope :: outer, i :: point⟩ ∧
      Hoisted state types point outer (i + 1) (next + 1) (handle + 1) list
        scope := by
  obtain ⟨bindings, functions⟩ := hoisted
  simp only [declaredBindings, shape] at bindings
  simp only [declaredFunctions, shape] at functions
  refine ⟨bindings 0 _ rfl, functions 0 _ rfl, ?_, ?_⟩
  · intro j binding found
    have later := bindings (j + 1) binding (by simpa using found)
    rw [Nat.add_assoc, Nat.add_comm 1 j]
    exact later
  · intro j function found
    have later := functions (j + 1) function (by simpa using found)
    rw [Nat.add_assoc, Nat.add_comm 1 j]
    exact later

theorem Hoisted.other
    (hoisted : Hoisted state types point outer i next handle (node :: list)
      scope)
    (noLet : ∀ name annotated value,
      node.unspanned ≠ .let name annotated value)
    (noFunction : ∀ name parameters returnAnnotated body,
      node.unspanned ≠ .function name parameters returnAnnotated body) :
    Hoisted state types point outer (i + 1) next handle list scope := by
  obtain ⟨bindings, functions⟩ := hoisted
  cases shape : node.unspanned with
  | «let» name annotated value => exact absurd shape (noLet _ _ _)
  | function name parameters returnAnnotated body =>
      exact absurd shape (noFunction _ _ _ _)
  | _ =>
      simp only [declaredBindings, shape] at bindings
      simp only [declaredFunctions, shape] at functions
      exact ⟨bindings, functions⟩

end Steps

include single

/-- The names of the hoisted functions are declared in both. -/
theorem hoisted_matches {types : TypeRegistry} {outer : Environment}
    {list : List Stmt} {i next handle : Nat} {scope captured : NameMap Nat}
    (same : state.types = types)
    (hoisted : Hoisted state types point outer i next handle list captured)
    (covers : final.Covers static (Analyzer.hoist point i list))
    (fits : Agrees static (scope :: outer) state) :
    Agrees (static.hoisted list) (hoistScope next list scope :: outer)
      state := by
  induction list generalizing static scope captured i next handle with
  | nil => exact fits
  | cons node rest induction =>
      obtain ⟨first, others⟩ := Analyzer.covers_hoist covers
      rw [Analyzer.hoisted_cons]
      cases shape : node.unspanned with
      | «let» name annotated value =>
          have kept : static.hoisted [node] = static := by
            simp [Static.hoisted, shape]
          rw [kept] at others ⊢
          simp only [hoistScope, shape]
          exact induction (hoisted.let shape).2 others fits
      | function name parameters returnAnnotated body =>
          obtain ⟨bound, entry, later⟩ := hoisted.function shape
          obtain ⟨scopes, declared⟩ := Analyzer.covers_declare single
            (Analyzer.covers_hoistStatement shape first)
          have step : static.hoisted [node] = static.declared name
              (Analyzer.functionSymbol static parameters
                returnAnnotated) := by
            simp [Static.hoisted, shape]
          rw [step] at others ⊢
          simp only [hoistScope, shape]
          refine induction later others (fits.declare declared ?_)
          refine ⟨_, bound, rfl, .function handle, rfl, _, entry, rfl, ?_⟩
          rw [← fits.annotation, same]
          rfl
      | _ =>
          have kept : static.hoisted [node] = static := by
            simp [Static.hoisted, shape]
          rw [kept] at others ⊢
          simp only [hoistScope, shape]
          refine induction (hoisted.other ?_ ?_) others fits
          · intro _ _ _ other
            cases shape.symm.trans other
          · intro _ _ _ _ other
            cases shape.symm.trans other

/-- Every hoisted function captured the scopes of its declaration. -/
theorem hoisted_scoped {types : TypeRegistry} {outer : Environment}
    {list : List Stmt} {i next handle : Nat} {scope : NameMap Nat}
    (same : state.types = types)
    (hoisted : Hoisted state types point outer i next handle list scope)
    (covers : final.Covers static (Analyzer.listed point i list))
    (fits : Agrees static (scope :: outer) state) :
    ∀ function ∈ declaredFunctions types point outer i next list scope,
      function.Scoped final state := by
  induction list generalizing static scope i next handle with
  | nil => exact nofun
  | cons node rest induction =>
      obtain ⟨first, others⟩ := Analyzer.covers_listed covers
      have bare := Analyzer.covers_unspanned node first
      cases shape : node.unspanned with
      | «let» name annotated value =>
          rw [shape] at bare
          obtain ⟨_, _, declaration⟩ := Analyzer.covers_let bare
          obtain ⟨scopes, declared⟩ :=
            Analyzer.covers_declare single declaration
          obtain ⟨bound, later⟩ := hoisted.let shape
          rw [passed_of_let shape] at others
          simp only [declaredFunctions, shape]
          refine induction later others (fits.declare declared ?_)
          refine ⟨_, bound, rfl, ?_⟩
          rw [← fits.annotation, same]
          rfl
      | function name parameters returnAnnotated body =>
          rw [shape] at bare
          rw [passed_of_other (by simp [shape])] at others
          simp only [declaredFunctions, shape]
          intro function member
          rcases List.mem_cons.mp member with rfl | later
          · exact ⟨static, returnAnnotated, fits,
              (Analyzer.covers_function bare).2⟩
          · exact induction (hoisted.function shape).2.2 others fits function
              later
      | _ =>
          rw [passed_of_other (by simp [shape])] at others
          simp only [declaredFunctions, shape]
          refine induction (hoisted.other ?_ ?_) others fits
          · intro _ _ _ other
            cases shape.symm.trans other
          · intro _ _ _ _ other
            cases shape.symm.trans other

omit single in
theorem hoist_kept (state : Interpreter) (point : Point) (list : List Stmt)
    (scope : NameMap Nat) (outer : Environment) :
    ArenasKept state (state.hoist point list scope outer) :=
  ⟨rfl, .append _ _ _, List.prefix_append _ _⟩

omit single in
theorem hoist_hoisted (state : Interpreter) (point : Point)
    (list : List Stmt) (scope : NameMap Nat) (outer : Environment) :
    Hoisted (state.hoist point list scope outer) state.types point outer 0
      state.bindings.length state.functions.length list
      (hoistScope state.bindings.length list scope) := by
  constructor
  · intro j binding found
    simp only [Interpreter.hoist]
    rw [List.getElem?_append_right (Nat.le_add_right _ _),
      Nat.add_sub_cancel_left, found]
  · intro j function found
    simp only [Interpreter.hoist]
    rw [List.getElem?_append_right (Nat.le_add_right _ _),
      Nat.add_sub_cancel_left, found]

/-- The slots of the `let` statements of a list have their annotations. -/
def SlotsReady (types : TypeRegistry) (state : Interpreter)
    (entries : List (Stmt × Option Nat)) : Prop :=
  ∀ node slot, (node, some slot) ∈ entries →
    ∀ name annotated value, node.unspanned = .let name annotated value →
      Symbol.At state (.variable (resolveAnnotated types annotated)) slot

omit single in
theorem SlotsReady.keep {types : TypeRegistry} {before after : Interpreter}
    {entries : List (Stmt × Option Nat)}
    (ready : SlotsReady types before entries)
    (kept : ArenasKept before after) : SlotsReady types after entries :=
  fun node slot member name annotated value shape =>
    (ready node slot member name annotated value shape).keep kept

omit single in
theorem hoist_slotsReady (state : Interpreter) (point : Point)
    (list : List Stmt) (scope : NameMap Nat) (outer : Environment) :
    SlotsReady state.types (state.hoist point list scope outer)
      (list.zip (slotsFrom state.bindings.length list)) := by
  intro node slot member name annotated value shape
  obtain ⟨i, rfl, found⟩ := mem_zip_slotsFrom state.types
    state.functions.length member shape
  exact ⟨_, (hoist_hoisted state point list scope outer).bindings i _ found,
    rfl, rfl⟩

end Hoisting

/-- The variable of a loop is bound in a scope of its own. -/
theorem scoped_loopVariable {variableName : String} {value : Value}
    {scopes : Scopes}
    (declared : static.scopes.declare variableName .loopVariable =
      some scopes)
    (fits : Agrees static ([] :: env) state) :
    (scoping final).Runs (allocate ⟨none, some value, true⟩)
      (fun id after => Agrees (static.declared variableName .loopVariable)
        ([(variableName, id)] :: env) after) state := by
  have grown : ArenasKept state { state with
      bindings := state.bindings ++ [⟨none, some value, true⟩] } :=
    ⟨rfl, .append _ _ _, List.prefix_rfl⟩
  refine scoped_allocate ((fits.keep grown).declare declared ?_)
  exact ⟨⟨none, some value, true⟩, by simp, rfl, rfl⟩

section Parallel

/-- An outcome without an error, or with one that is explained. -/
def Outcome.Scoped (final : Analyzer) (outcome : Outcome) : Prop :=
  ∀ error, outcome.result = .error error →
    final.Explains error.origin error.kind

/-- How a worker ends in its thread: its errors are part of its outcome. -/
def Completed (final : Analyzer) : Result Outcome → Prop
  | .ok outcome => outcome.Scoped final
  | .error (.error _) => False
  | .error _ => True

def ExplainedError (final : Analyzer) (error : Option RuntimeError) : Prop :=
  ∀ raised, error = some raised → final.Explains raised.origin raised.kind

theorem Outcome.Scoped.ended {outcome : Outcome}
    (known : outcome.Scoped final) :
    ExplainedError final outcome.error? := by
  intro raised same
  unfold Outcome.error? at same
  split at same
  · cases same
  · next error failed =>
      cases same
      exact known _ failed

theorem ExplainedError.or {first second : Option RuntimeError}
    (known : ExplainedError final first)
    (other : ExplainedError final second) :
    ExplainedError final (first.or second) := by
  cases first with
  | none => exact other
  | some error => exact known

section Workers

variable {self : Evaluator} (within : self.Scoped final)
  (single : ¬ final.Reports .duplicateDeclaration)
include within single

theorem scoped_iterationBody {worker : Worker}
    (known : worker.Scoped final) :
    (scoping final).Runs (iterationBody self worker) (fun _ _ => True)
      worker.start := by
  obtain ⟨static, fits, covers⟩ := known.body
  obtain ⟨⟨scopes, declared⟩, inside⟩ :=
    Analyzer.covers_iteration single covers
  have allocated : (scoping final).Runs
      (allocate ⟨none, some worker.value, true⟩)
      (fun id after => Agrees
        (static.declared worker.variableName .loopVariable)
        ([(worker.variableName, id)] :: worker.snapshot.env) after)
      worker.start :=
    scoped_loopVariable declared fits
  refine allocated.bind fun id next _ _ fits => ?_
  refine (within.body inside fits).bind fun (flow, _) _ _ _ _ => ?_
  cases flow with
  | normal => exact runs_pure trivial
  | «continue» => exact runs_pure trivial
  | «break» => exact scoped_fail trivial
  | «return» value => exact scoped_fail trivial

theorem scoped_executeWorker {worker : Worker}
    (known : worker.Scoped final) :
    (executeWorker self worker).Safe (scopedContract final)
      (Completed final) := by
  refine (scoped_iterationBody within single known known.fits).bind ?_
  rintro ⟨result, after⟩ held
  rcases result with (error | _ | _) | value
  · rintro _ ⟨⟩
    exact held.error _ rfl error rfl
  · trivial
  · trivial
  · exact nofun

theorem scoped_runInline {jobs : List Worker}
    (known : ∀ job ∈ jobs, job.Scoped final) :
    (scoping final).Runs (runInline self jobs)
      (fun outcomes _ => ∀ outcome ∈ outcomes, outcome.Scoped final)
      state := by
  induction jobs generalizing state with
  | nil => exact runs_pure nofun
  | cons job rest induction =>
      have runs : (scoping final).Runs
          (fun state => (executeWorker self job).bind fun result =>
            .ret (result, state))
          (fun outcome _ => outcome.Scoped final) state := by
        intro fits
        refine (scoped_executeWorker within single
          (known job List.mem_cons_self)).bind fun result completed => ?_
        refine ⟨.refl state, fits, ?_, ?_⟩
        · rintro outcome rfl
          exact completed
        · rintro _ rfl error rfl
          exact completed.elim
      refine runs.bind fun outcome _ _ _ first => ?_
      refine (induction fun other member =>
        known other (List.mem_cons_of_mem _ member)).bind
        fun outcomes _ _ _ others => runs_pure ?_
      intro other member
      rcases List.mem_cons.mp member with rfl | later
      · exact first
      · exact others other later

end Workers

theorem scoped_joinOutcomes {jobs : List Worker} {ends : List WorkerEnd}
    (known : ∀ done ∈ ends, done.Scoped final) :
    (scoping final).Runs (joinOutcomes point jobs ends)
      (fun outcomes _ => ∀ outcome ∈ outcomes, outcome.Scoped final)
      state := by
  induction jobs generalizing ends state with
  | nil =>
      unfold joinOutcomes
      exact runs_pure nofun
  | cons job jobs induction =>
      cases ends with
      | nil => exact runs_pure nofun
      | cons done ends =>
          have joins : (scoping final).Runs (joinOutcome point job done)
              (fun outcome _ => outcome.Scoped final) state := by
            have one := known done List.mem_cons_self
            cases done with
            | finished outcome => exact runs_pure one
            | panicked =>
                refine runs_ret rfl (fun _ => .refl state)
                  (fun fits => fits) fun _ => ?_
                rintro _ ⟨⟩
                trivial
            | outOfFuel => exact runs_stop fun _ => nofun
          refine joins.bind fun outcome _ _ _ first => ?_
          refine (induction fun other member =>
            known other (List.mem_cons_of_mem _ member)).bind
            fun outcomes _ _ _ others => runs_pure ?_
          intro other member
          rcases List.mem_cons.mp member with rfl | later
          · exact first
          · exact others other later

theorem scoped_runThreads {jobs : List Worker}
    (known : ∀ job ∈ jobs, job.Scoped final) :
    (scoping final).Runs (runThreads point jobs)
      (fun outcomes _ => ∀ outcome ∈ outcomes, outcome.Scoped final)
      state := by
  have ended : ∀ (jobs : List Worker) (ends : List WorkerEnd),
      List.Forall₂ (fun _ done => done.Scoped final) jobs ends →
      ∀ done ∈ ends, done.Scoped final := by
    intro jobs ends all
    induction all with
    | nil => exact nofun
    | cons head _ induction =>
        intro done member
        rcases List.mem_cons.mp member with rfl | later
        · exact head
        · exact induction done later
  have spawns : (scoping final).Runs (spawn jobs)
      (fun reply _ => ∀ done ∈ reply.1, done.Scoped final) state := by
    intro fits
    rw [wp_spawn]
    refine ⟨known, fun reply joined => ⟨.refl state, fits, ?_, nofun⟩⟩
    rintro _ ⟨⟩
    exact ended _ _ joined.ends
  refine spawns.bind fun (ends, refusal) next _ _ all => ?_
  refine (scoped_joinOutcomes all).bind fun outcomes last _ _ joined => ?_
  have refused : (scoping final).Runs
      (refusedOutcome point jobs ends.length refusal)
      (fun outcomes _ => ∀ outcome ∈ outcomes, outcome.Scoped final)
      last := by
    cases refusal with
    | none => exact runs_pure nofun
    | some reason =>
        refine runs_ret rfl (fun _ => .refl last) (fun fits => fits)
          fun _ outcome member => ?_
        rw [List.mem_singleton] at member
        subst member
        rintro _ ⟨⟩
        trivial
  refine refused.bind fun others _ _ _ rest => runs_pure ?_
  intro outcome member
  rcases List.mem_append.mp member with first | second
  · exact joined outcome first
  · exact rest outcome second

theorem scoped_deliverLines {lines : List String} :
    (scoping final).Runs (deliverLines point lines)
      (fun error _ => ExplainedError final error) state := by
  induction lines generalizing state with
  | nil => exact runs_pure nofun
  | cons line rest induction =>
      intro fits
      unfold wp deliverLines
      have leaf : Leaf final (print point line) := .print point line
      refine Comp.Safe.bind (leaf.runs fits) ?_
      rintro ⟨result, after⟩ held
      rcases result with (error | _ | _) | _
      · refine ⟨held.rel, held.inv, ?_, nofun⟩
        rintro _ ⟨⟩ raised ⟨⟩
        exact held.error _ rfl error rfl
      · exact ⟨held.rel, held.inv, nofun, fun _ failed =>
          held.error _ (by cases failed; rfl)⟩
      · exact ⟨held.rel, held.inv, nofun, fun _ failed =>
          held.error _ (by cases failed; rfl)⟩
      · refine wp_mono (induction held.inv) fun result last done => ?_
        exact ⟨held.rel.trans done.rel, done.inv, done.ok, done.error⟩

theorem scoped_deliver {outcomes : List Outcome}
    {first : Option RuntimeError}
    (known : ∀ outcome ∈ outcomes, outcome.Scoped final)
    (explained : ExplainedError final first) :
    (scoping final).Runs (deliver point outcomes first)
      (fun error _ => ExplainedError final error) state := by
  induction outcomes generalizing first state with
  | nil => exact runs_pure explained
  | cons outcome rest induction =>
      refine scoped_deliverLines.bind fun lost _ _ _ printed => ?_
      refine induction (fun other member =>
        known other (List.mem_cons_of_mem _ member)) ?_
      exact (explained.or printed).or
        (known outcome List.mem_cons_self).ended

theorem scoped_prepare {job : Nat → Value → HostId → Worker} {i : Nat}
    {values : List Value}
    (known : ∀ i value host, (job i value host).Scoped final) :
    (scoping final).Runs (prepare point job i values)
      (fun jobs _ => ∀ job ∈ jobs, job.Scoped final) state := by
  induction values generalizing i state with
  | nil => exact runs_pure nofun
  | cons value rest induction =>
      refine (Leaf.tick point).andThen fun _ _ _ => ?_
      refine (Leaf.fork point).andThen fun host _ _ => ?_
      refine induction.bind fun jobs _ _ _ others => runs_pure ?_
      intro other member
      rcases List.mem_cons.mp member with rfl | later
      · exact known i value host
      · exact others other later

variable {self : Evaluator} (within : self.Scoped final)
  (single : ¬ final.Reports .duplicateDeclaration)
include within single

theorem scoped_batches {job : Nat → Value → HostId → Worker}
    {width batch : Nat} {values : List (List Value)}
    (known : ∀ i value host, (job i value host).Scoped final) :
    (scoping final).Runs (batches self point job width batch values)
      (fun _ _ => True) state := by
  induction values generalizing batch state with
  | nil => exact runs_pure trivial
  | cons values rest induction =>
      refine (scoped_prepare known).bind fun jobs next _ _ ready => ?_
      have runs : (scoping final).Runs (runJobs self point jobs)
          (fun outcomes _ => ∀ outcome ∈ outcomes, outcome.Scoped final)
          next := by
        refine runs_get fun _ => ?_
        exact scoped_ite (fun _ => scoped_runInline within single ready)
          fun _ => scoped_runThreads ready
      refine runs.bind fun outcomes _ _ _ ended => ?_
      have empty : ExplainedError final none := nofun
      refine (scoped_deliver ended empty).bind fun first last _ _ error => ?_
      cases first with
      | none =>
          have ends : (scoping final).Runs (finishBatch none)
              (fun _ _ => True) last := runs_pure trivial
          exact ends.bind fun _ _ _ _ _ => induction
      | some raised =>
          have ends : (scoping final).Runs (finishBatch (some raised))
              (fun _ _ => False) last := by
            refine runs_stop ?_
            rintro _ ⟨⟩
            exact error raised rfl
          exact ends.bind fun _ _ _ _ impossible => impossible.elim

/-- The workers of a parallel statement start in the scopes of its body. -/
theorem scoped_parallel [Formatting] {inner : Static}
    {variableName : String} {iterable : Expr} {body : Stmt}
    (iterated : final.Covers static
      (Analyzer.expression (0 :: point) iterable))
    (covers : final.Covers inner
      (Analyzer.iterationAnalysis point variableName body))
    (types : inner.types = static.types)
    (scopes : inner.scopes = ⟨1 :: point, []⟩ :: static.scopes)
    (fits : Agrees static env state) :
    (scoping final).Runs
      (parallel self point env variableName iterable body)
      (fun _ _ => True) state := by
  refine (within.expression iterated fits).bind fun values next kept _ _ => ?_
  have fails : (scoping final).Runs (fail point .parallelArray)
      (fun (_ : Unit) _ => True) next := scoped_fail trivial
  cases values with
  | array values =>
      cases values with
      | nil => exact runs_pure trivial
      | cons value rest =>
          refine runs_reported ?_ fun _ _ _ held => settles_after held
          refine runs_get fun functions => ?_
          refine scoped_batches within single fun i value host => ?_
          have start : SameArenas next (Worker.start ⟨self.clock, point,
              variableName, body, next.snapshotAt env, next.limits, i, value,
              host⟩) := ⟨rfl, rfl, rfl⟩
          refine ⟨functions.same start, inner, ?_, covers⟩
          exact ((fits.keep kept).keep start.kept).enter _ types scopes
  | _ => exact fails

end Parallel

section Statements

variable [Formatting] {self : Evaluator} (within : self.Scoped final)
  (single : ¬ final.Reports .duplicateDeclaration)

omit [Formatting] in
theorem bodyBlock_covered {list : List Stmt}
    (covers : final.Covers static (Analyzer.statements point list)) :
    final.Covers static (Analyzer.statement .body point (.block list)) := by
  obtain ⟨analyzer, same, held⟩ := covers
  refine ⟨analyzer, same, ?_⟩
  rw [← Analyzer.bodyInCurrentScope_block] at held
  exact held

include within

omit [Formatting] in
theorem scoped_condition {test : Expr}
    (covers : final.Covers static (Analyzer.expression point test))
    (fits : Agrees static env state) :
    (scoping final).Runs (condition self point test env)
      (fun _ _ => True) state :=
  (within.expression covers fits).bind fun value _ _ _ _ =>
    (Leaf.relocate (Leaf.lift (asBoolean_plain value))).runs.mono
      fun _ _ _ _ _ => trivial

omit [Formatting] in
theorem scoped_scopedBody {body : Stmt}
    (covers : final.Covers static (Analyzer.statement .body point body))
    (fits : Agrees static ([] :: env) state) :
    (scoping final).Runs (scopedBody self point body env)
      (fun _ _ => True) state :=
  (within.body covers fits).bind fun _ _ _ _ _ => runs_pure trivial

omit [Formatting] in
theorem scoped_whileLoop {inner : Static} {test : Expr} {body : Stmt}
    (tested : final.Covers static (Analyzer.expression (0 :: point) test))
    (covers : final.Covers inner (Analyzer.statement .body (1 :: point) body))
    (types : inner.types = static.types)
    (scopes : inner.scopes = ⟨1 :: point, []⟩ :: static.scopes)
    (fits : Agrees static env state) :
    (scoping final).Runs (whileLoop self point test body env)
      (fun _ _ => True) state := by
  refine (scoped_condition within tested fits).bind
    fun again next kept _ _ => scoped_ite (fun _ => ?_)
      fun _ => runs_pure trivial
  refine (scoped_scopedBody within covers
    ((fits.keep kept).enter _ types scopes)).bind
    fun flow last more _ _ => ?_
  have loops := within.whileLoop tested covers types scopes
    ((fits.keep kept).keep more)
  cases flow with
  | normal => exact loops
  | «continue» => exact loops
  | «break» => exact runs_pure trivial
  | «return» value => exact runs_pure trivial

omit [Formatting] in
theorem scoped_matchArms {value : Value} {i : Nat}
    {arms : List (Pattern × Stmt)}
    (covers : final.Covers static (Analyzer.matchArms point i arms))
    (fits : Agrees static env state) :
    (scoping final).Runs (matchArms self point env value i arms)
      (fun _ _ => True) state := by
  induction arms generalizing i with
  | nil => exact runs_pure trivial
  | cons arm rest induction =>
      obtain ⟨pattern, body⟩ := arm
      obtain ⟨first, others⟩ := Analyzer.covers_matchArms covers
      exact scoped_ite
        (fun _ => scoped_scopedBody within first
          (fits.enter (i :: point) rfl rfl))
        fun _ => induction others

include single

omit [Formatting] in
theorem scoped_forLoop {variableName : String} {body : Stmt}
    {values : List Value}
    (covers : final.Covers static
      (Analyzer.iterationAnalysis point variableName body))
    (fits : Agrees static ([] :: env) state) :
    (scoping final).Runs (forLoop self point variableName body env values)
      (fun _ _ => True) state := by
  obtain ⟨⟨_, declared⟩, inside⟩ := Analyzer.covers_iteration single covers
  induction values generalizing state with
  | nil => exact runs_pure trivial
  | cons value rest induction =>
      refine (Leaf.tick point).andThen fun _ next same => ?_
      refine (scoped_loopVariable declared (fits.keep same.kept)).bind
        fun id later more _ bound => ?_
      refine (within.body inside bound).bind fun (flow, _) last rest _ _ => ?_
      have loops := induction
        (((fits.keep same.kept).keep more).keep rest)
      cases flow with
      | normal => exact loops
      | «continue» => exact loops
      | «break» => exact runs_pure trivial
      | «return» value => exact runs_pure trivial

theorem scoped_statement {node : Stmt}
    (bare : ∀ span inner, node ≠ .located span inner)
    (covers : final.Covers static (Analyzer.statement .listed point node))
    (fits : Agrees static env state) :
    (scoping final).Runs (statement self point node env)
      (fun _ _ => True) state := by
  cases node with
  | located span inner => exact absurd rfl (bare span inner)
  | type name fields => exact runs_pure trivial
  | «break» => exact runs_pure trivial
  | «continue» => exact runs_pure trivial
  | «let» name annotated value => exact scoped_panic
  | function name parameters returnAnnotated body => exact runs_pure trivial
  | expression value =>
      exact (within.expression (Analyzer.covers_expressionStatement covers).2
        fits).bind fun _ _ _ _ _ => runs_pure trivial
  | block list =>
      have inside := bodyBlock_covered (Analyzer.covers_block covers).2
      exact scoped_scopedBody within inside (fits.enter _ rfl rfl)
  | «return» value =>
      have returned := (Analyzer.covers_return covers).2
      refine Leaf.location.andThen fun location next same => ?_
      have here := fits.keep same.kept
      have valued : (scoping final).Runs (returnValue self point env value)
          (fun _ _ => True) next := by
        cases value with
        | some value =>
            exact (within.expression (Analyzer.covers_optional returned)
              here).mono fun _ _ _ _ _ => trivial
        | none => exact runs_pure trivial
      refine valued.bind fun value _ _ _ _ => ?_
      exact (Leaf.relocate (Leaf.checkReturn point value)).andThen
        fun _ _ _ => runs_pure trivial
  | «if» test thenBranch elseBranch =>
      obtain ⟨_, tested, chosen, other⟩ := Analyzer.covers_if covers
      refine (scoped_condition within tested fits).bind
        fun taken next kept _ _ => scoped_ite (fun _ => ?_) fun _ => ?_
      · exact scoped_scopedBody within chosen
          ((fits.keep kept).enter (1 :: point) rfl rfl)
      · cases elseBranch with
        | some branch =>
            exact scoped_scopedBody within (Analyzer.covers_otherwise other)
              ((fits.keep kept).enter (2 :: point) rfl rfl)
        | none => exact runs_pure trivial
  | «while» test body =>
      obtain ⟨_, tested, inside⟩ := Analyzer.covers_while covers
      exact within.whileLoop tested inside rfl rfl fits
  | «for» variableName iterable body =>
      obtain ⟨_, iterated, inside⟩ := Analyzer.covers_for covers
      refine (within.expression iterated fits).bind
        fun values next kept _ _ => ?_
      have fails : (scoping final).Runs (fail point .forArray)
          (fun (_ : Flow) _ => True) next := scoped_fail trivial
      cases values with
      | array values =>
          exact scoped_forLoop within single inside
            ((fits.keep kept).enter (1 :: point) rfl rfl)
      | _ => exact fails
  | «match» value arms =>
      obtain ⟨_, valued, inside⟩ := Analyzer.covers_match covers
      exact (within.expression valued fits).bind fun _ _ kept _ _ =>
        scoped_matchArms within inside (fits.keep kept)
  | parallel variableName iterable body =>
      obtain ⟨_, iterated, inside⟩ := Analyzer.covers_parallel covers
      exact (scoped_parallel within single iterated inside rfl rfl
        fits).bind fun _ _ _ _ _ => runs_pure trivial

/-- A statement leaves the environment that is known after it. -/
theorem scoped_executeUnlocated {level : NameMap Nat} {outer : Environment}
    {node : Stmt} {slot : Option Nat}
    (bare : ∀ span inner, node ≠ .located span inner)
    (covers : final.Covers static (Analyzer.statement .listed point node))
    (ready : SlotsReady static.types state [(node, slot)])
    (fits : Agrees static (level :: outer) state) :
    (scoping final).Runs
      (executeUnlocated self point node slot (level :: outer))
      (fun outcome after => ∃ level, outcome.2 = level :: outer ∧
        Agrees (static.passed node) (level :: outer) after) state := by
  have others : (∀ name annotated value,
      node ≠ .let name annotated value) → (scoping final).Runs (do
        let flow ← statement self point node (level :: outer)
        pure (flow, level :: outer))
      (fun outcome after => ∃ level, outcome.2 = level :: outer ∧
        Agrees (static.passed node) (level :: outer) after) state := by
    intro other
    refine (scoped_statement within single bare covers fits).bind
      fun flow next kept _ _ => runs_pure ⟨level, rfl, ?_⟩
    have same : static.passed node = static := by
      cases node with
      | located span inner => exact absurd rfl (bare span inner)
      | «let» name annotated value => exact absurd rfl (other _ _ _)
      | _ => rfl
    rw [same]
    exact fits.keep kept
  cases node with
  | «let» name annotated value =>
      obtain ⟨_, valued, declaration⟩ := Analyzer.covers_let covers
      obtain ⟨scopes, declared⟩ :=
        Analyzer.covers_declare single declaration
      refine Leaf.location.andThen fun location next same => ?_
      refine (within.expression valued (fits.keep same.kept)).bind
        fun value later kept _ _ => ?_
      cases slot with
      | none =>
          have panics : (scoping final).Runs (slotOf none)
              (fun _ _ => False) later := scoped_panic
          exact panics.bind fun _ _ _ _ impossible => impossible.elim
      | some id =>
          have bound := (ready _ id (List.mem_singleton.mpr rfl) name
            annotated _ rfl).keep (same.kept.trans kept)
          have found : (scoping final).Runs (slotOf (some id))
              (fun known after => known = id ∧ after = later) later :=
            runs_pure ⟨rfl, rfl⟩
          refine found.bind fun known _ _ _ held => ?_
          obtain ⟨rfl, rfl⟩ := held
          refine (Leaf.relocate (Leaf.checkBinding point known value)).andThen
            fun _ checked again => ?_
          obtain ⟨binding, atSlot, mutable, _⟩ := bound.keep again.kept
          refine (scoped_write atSlot mutable).bind
            fun _ last written _ _ => ?_
          have whole := ((same.kept.trans kept).trans again.kept).trans
            written
          have declares : (scoping final).Runs
              (declareIn (level :: outer) name known)
              (fun env after => env =
                NameMap.insert level name known :: outer ∧ after = last)
              last := runs_pure ⟨rfl, rfl⟩
          refine declares.bind fun env _ _ _ held => ?_
          obtain ⟨rfl, rfl⟩ := held
          refine runs_pure ⟨_, rfl, ?_⟩
          rw [Analyzer.passed_let]
          exact (fits.keep whole).declare declared
            ((bound.keep again.kept).keep written)
  | _ => exact others nofun

theorem scoped_execute {level : NameMap Nat} {outer : Environment}
    {node : Stmt} {slot : Option Nat}
    (covers : final.Covers static (Analyzer.statement .listed point node))
    (ready : SlotsReady static.types state [(node, slot)])
    (fits : Agrees static (level :: outer) state) :
    (scoping final).Runs (execute self point node slot (level :: outer))
      (fun outcome after => ∃ level, outcome.2 = level :: outer ∧
        Agrees (static.passed node) (level :: outer) after) state := by
  have bare : ∀ span inner, node.unspanned ≠ .located span inner :=
    fun span inner => node.unspanned_ne_located span inner
  have inside := Analyzer.covers_unspanned node covers
  have same : SameArenas state { state with
      currentSpan := node.span.or state.currentSpan } := ⟨rfl, rfl, rfl⟩
  have passes : static.passed node = static.passed node.unspanned := by
    simp [Static.passed]
  rw [passes]
  refine scoped_withSpan (runs_observed (fun _ => ?_) ?_
    fun _ _ _ held => settles_after held) fun outcome after held => ?_
  · exact ⟨static, Analyzer.covers_visitedStatement bare inside,
      fits.keep same.kept⟩
  · refine (Leaf.tick point).andThen fun _ next again => ?_
    refine scoped_executeUnlocated within single bare inside ?_
      ((fits.keep same.kept).keep again.kept)
    intro other id member name annotated value shape
    obtain ⟨rfl, rfl⟩ := Prod.mk.inj (List.mem_singleton.mp member)
    exact ((ready node id (List.mem_singleton.mpr rfl) name annotated value
      (by simpa using shape)).keep same.kept).keep again.kept
  · obtain ⟨level, env, fits⟩ := held
    exact ⟨level, env, fits.keep (SameArenas.kept ⟨rfl, rfl, rfl⟩)⟩

end Statements

end NetLang
