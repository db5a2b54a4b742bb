import NetLang.Library.Descent
import NetLang.Theory.Entries

/-!
# Termination within the step budget

A computation that pays asks for a step before it does anything else, and
does nothing if none is left.
-/

namespace NetLang

open Interp

section Payment

variable {α β : Type}

/-- Ends with the step limit, and does nothing before. -/
def Comp.Refused : Comp effects (Result α × Interpreter) → Prop
  | .ret (result, _) =>
      ∃ error, result = .error (.error error) ∧ error.kind = .stepLimit
  | .act (.observe _) next => (next ()).Refused
  | .act _ _ => False

/-- Asks for a step before it does anything, and does nothing without it. -/
def Comp.Pays : Comp effects (Result α × Interpreter) → Prop
  | .ret _ => False
  | .act .tick next => (next false).Refused
  | .act (.observe _) next => (next ()).Pays
  | .act _ _ => False

theorem Comp.Refused.bind
    {f : Result α × Interpreter → Comp effects (Result β × Interpreter)}
    (passes : ∀ error state, error.kind = .stepLimit →
      (f (.error (.error error), state)).Refused)
    {comp : Comp effects (Result α × Interpreter)} (refused : comp.Refused) :
    (comp.bind f).Refused := by
  induction comp with
  | ret outcome =>
      obtain ⟨result, state⟩ := outcome
      obtain ⟨error, rfl, limit⟩ := refused
      exact passes error state limit
  | act action next induction =>
      cases action with
      | observe note => exact induction () refused
      | tick => exact refused.elim
      | call operation => exact refused.elim
      | spawn jobs => exact refused.elim

theorem Comp.Pays.bind
    {f : Result α × Interpreter → Comp effects (Result β × Interpreter)}
    (passes : ∀ error state, error.kind = .stepLimit →
      (f (.error (.error error), state)).Refused)
    {comp : Comp effects (Result α × Interpreter)} (pays : comp.Pays) :
    (comp.bind f).Pays := by
  induction comp with
  | ret outcome => exact pays.elim
  | act action next induction =>
      cases action with
      | tick => exact Comp.Refused.bind passes pays
      | observe note => exact induction () pays
      | call operation => exact pays.elim
      | spawn jobs => exact pays.elim

/-- Pays in every state. -/
def Interp.Pays (comp : Interp α) : Prop :=
  ∀ state, (comp state).Pays

theorem Interp.pays_tick (point : Point) : (tick point).Pays :=
  fun _ => ⟨_, rfl, rfl⟩

theorem Interp.Pays.bind {comp : Interp α} (pays : comp.Pays)
    (f : α → Interp β) : (comp >>= f).Pays := by
  intro state
  refine (pays state).bind ?_
  intro error state limit
  exact ⟨error, rfl, limit⟩

theorem Interp.Pays.around {enter : Interpreter → Interpreter}
    {leave : Interpreter → Interpreter → Interpreter} {comp : Interp α}
    (pays : comp.Pays) : (around enter leave comp).Pays := by
  intro state
  refine (pays (enter state)).bind ?_
  intro error state limit
  exact ⟨error, rfl, limit⟩

theorem Interp.Pays.observed {before : Interpreter → Observation}
    {after : Interpreter → Result α → Interpreter → Observation}
    {comp : Interp α} (pays : comp.Pays) :
    (observed before after comp).Pays := by
  intro state
  refine Comp.Pays.bind ?_ (pays state)
  intro error state limit
  exact ⟨error, rfl, limit⟩

end Payment

section Evaluation

variable [Formatting] {given : Evaluator}

theorem expressionNode_pays (point : Point) (env : Environment)
    (node : Expr) : (expressionNode given point env node).Pays :=
  ((pays_tick point).bind _).observed

theorem expression_pays (point : Point) (node : Expr) (env : Environment) :
    (expression given point node env).Pays :=
  expression_induction (fun _ _ inner => inner.around)
    (expressionNode_pays point env) node

omit [Formatting] in
/-- However it is written, an assignment target costs a step. -/
theorem target_pays (env : Environment) (point : Point) (node : Expr) :
    (target given env point node).Pays := by
  fun_induction target given env point node with
  | case1 point span node induction => exact induction.around
  | case2 => exact (pays_tick _).bind _
  | case3 => exact (pays_tick _).bind _
  | case4 => exact (pays_tick _).bind _
  | case5 => exact (pays_tick _).bind _

theorem execute_pays (point : Point) (node : Stmt) (slot : Option Nat)
    (env : Environment) : (execute given point node slot env).Pays := by
  unfold execute withSpan
  exact ((pays_tick point).bind _).observed.around

omit [Formatting] in
theorem forLoop_pays (point : Point) (variableName : String) (body : Stmt)
    (env : Environment) (value : Value) (rest : List Value) :
    (forLoop given point variableName body env (value :: rest)).Pays :=
  (pays_tick point).bind _

omit [Formatting] in
theorem prepare_pays (point : Point) (job : Nat → Value → HostId → Worker)
    (index : Nat) (value : Value) (rest : List Value) :
    (prepare point job index (value :: rest)).Pays :=
  (pays_tick point).bind _

omit [Formatting] in
/-- Each time a while loop is entered its condition costs a step. -/
theorem whileLoop_pays (paying : ∀ point node env,
      (given.expression point node env).Pays)
    (point : Point) (test : Expr) (body : Stmt) (env : Environment) :
    (whileLoop given point test body env).Pays :=
  ((paying (0 :: point) test env).bind _).bind _

end Evaluation

section Runs

variable [Formatting]

/-- Every run of an accepted program ends within its steps, if the host always
replies, whichever threads take their turns.  The fuel of the model is not
what ends it.  The steps that are granted to all threads and the steps that
are left make up the budget, so once none is left, no more are granted.
No more bodies of functions have ever been entered than calls have been begun,
except for the automatic call of `main`.  Without a step nothing starts:
neither an expression, such as a call, an assignment target or a statement,
nor the next iteration of a loop or of a parallel statement. -/
theorem run_ends (host : Host effects) (clock identity : Nat)
    (limits : Limits) (program : Program) (accepted : analyze program = [])
    (answers : ∀ history call, host.answer history call ≠ none)
    (enough : 2 * limits.steps < clock) :
    (∀ schedule : Nat → Nat, ∃ turns ending,
      (runOf host clock identity limits program
        ((List.range turns).map schedule)).result? = some ending ∧
      ending.1 ≠ .error .outOfFuel) ∧
    (∀ choices, ∀ note ∈ (runOf host clock identity limits program
      choices).shared.notes, note.stopped ≠ some .outOfFuel) ∧
    (∀ choices, (launch clock identity limits program).granted (setup host)
      choices + (runOf host clock identity limits program
        choices).shared.budget = limits.steps) ∧
    (∀ choices later, (runOf host clock identity limits program
        choices).shared.budget = 0 →
      (runOf host clock identity limits program choices).granted (setup host)
        later = 0) ∧
    (∀ choices, (runOf host clock identity limits program
        choices).shared.notes.countP Observation.entersFunction ≤
      (runOf host clock identity limits program
        choices).shared.notes.countP Observation.calls + 1) ∧
    (∀ given point node env, (expression given point node env).Pays) ∧
    (∀ given env point node, (target given env point node).Pays) ∧
    (∀ given point node slot env, (execute given point node slot env).Pays) ∧
    (∀ given point variableName body env value rest,
      (forLoop given point variableName body env (value :: rest)).Pays) ∧
    (∀ point job index value rest,
      (prepare point job index (value :: rest)).Pays) ∧
    (∀ fuel point test body env,
      ((evaluator (fuel + 2)).whileLoop point test body env).Pays) := by
  have within (choices : List Nat) : (runOf host clock identity limits program
      choices).Within _ _ :=
    runOf_anyHost False False accepted (.inr enough) False.elim
  refine ⟨?_, ?_, ?_, ?_, run_pays host clock identity limits program,
    fun _ => expression_pays, fun _ => target_pays, fun _ => execute_pays,
    fun _ => forLoop_pays, prepare_pays, ?_⟩
  · intro schedule
    obtain ⟨turns, ended⟩ := Machine.schedule_ends (setup host) schedule
      (launch clock identity limits program)
    have running : (runOf host clock identity limits program
        ((List.range turns).map schedule)).control ≠ .crashed :=
      Machine.run_running _ answers nofun
    obtain ⟨ending, returned⟩ :=
      Option.isSome_iff_exists.mp (ended.resolve_left running)
    refine ⟨turns, ending, returned, ?_⟩
    intro exhausted
    exact (within _).result returned _ exhausted
  · intro choices note member stopped
    exact ((within choices).shared.notes note member).1.stops stopped
  · intro choices
    exact Machine.run_budget (setup host) choices
      (launch clock identity limits program)
  · intro choices later empty
    have kept := Machine.run_budget (setup host) later
      (runOf host clock identity limits program choices)
    omega
  · intro fuel
    exact whileLoop_pays expression_pays

/-- A program that calls functions in parallel, and then in an endless
loop. -/
def endlessProgram : Program := ⟨[
  .function "idle" [] none (.block []),
  .function "twice" [⟨"f", none⟩] none (.block [
    .expression (.call (.identifier "f") []),
    .expression (.call (.identifier "f") [])]),
  .parallel "item" (.array [.integer 1, .integer 2]) (.block [
    .expression (.call (.identifier "idle") [])]),
  .function "main" [] none (.block [
    .while (.boolean true) (.block [
      .expression (.call (.identifier "twice") [.identifier "idle"])])])]⟩

/-- A host that only starts workers. -/
def forkingHost : Host effects where
  answer _ call :=
    match call with
    | (_, .fork) => some (.ok ())
    | _ => some (.error "unsupported")
  refuse _ _ := none

omit [Formatting] in
theorem run_ends_endless :
    let _formatting : Formatting := plainFormatting
    analyze endlessProgram = [] ∧
      (∀ history call, forkingHost.answer history call ≠ none) ∧
      ∀ schedule : Nat → Nat, ∃ turns ending,
        (runOf forkingHost 101 0 { steps := 50 } endlessProgram
          ((List.range turns).map schedule)).result? = some ending ∧
        ending.1 ≠ .error .outOfFuel := by
  intro _formatting
  have accepted : analyze endlessProgram = [] := by decide +kernel
  have answers : ∀ history call, forkingHost.answer history call ≠ none := by
    intro history call
    obtain ⟨host, operation⟩ := call
    cases operation <;> exact nofun
  exact ⟨accepted, answers, (run_ends forkingHost 101 0
    { steps := 50 } endlessProgram accepted answers (by decide)).1⟩

end Runs

end NetLang
