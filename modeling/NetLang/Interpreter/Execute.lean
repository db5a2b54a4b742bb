import NetLang.Interpreter.Statement
import NetLang.Library.Threads

/-!
# Execution of programs

The evaluators of every fuel, the threads of parallel workers, and the run of
a whole program.
-/

namespace NetLang

open Interp

variable [Formatting]

/-- The evaluator without fuel. -/
def exhausted : Evaluator where
  clock := 0
  expression := fun _ _ _ => stop .outOfFuel
  body := fun _ _ _ => stop .outOfFuel
  whileLoop := fun _ _ _ _ => stop .outOfFuel

def Evaluator.step (self : Evaluator) : Evaluator where
  clock := self.clock + 1
  expression := NetLang.expression self
  body := NetLang.body self
  whileLoop := NetLang.whileLoop self

def evaluator : Nat → Evaluator
  | 0 => exhausted
  | clock + 1 => (evaluator clock).step

@[simp] theorem evaluator_clock (clock : Nat) :
    (evaluator clock).clock = clock := by
  induction clock with
  | zero => rfl
  | succ clock induction => exact congrArg (· + 1) induction

/-- The thread of a worker. -/
def workerThread (worker : Worker) : Comp effects WorkerEnd :=
  (executeWorker (evaluator worker.clock) worker).bind fun result =>
    .ret (.ofResult result)

def setup (host : Host effects) : Setup effects where
  host := host
  job := workerThread
  panicked := .panicked

/-- The immutable bindings of `print` and the built-in functions. -/
def builtinBindings : List Binding :=
  ⟨none, some .print, false⟩ ::
    Builtin.all.map fun builtin => ⟨none, some (.builtin builtin), false⟩

def builtinScope : NameMap Nat :=
  ("print", 0) :: (Builtin.all.zipIdx 1).map fun (builtin, id) =>
    (builtin.name, id)

def initialState (identity : Nat) (limits : Limits) (program : Program) :
    Interpreter where
  types := TypeRegistry.new identity program
  returnType := none
  currentSpan := none
  runtime := { host := [], forks := 0, buffer := none }
  bindings := builtinBindings
  functions := []
  limits := limits
  expressionDepth := 0
  callStack := []
  capturedBindings := 0
  inParallelWorker := false
  attempts := 0
  workers := []
  snapshot := none

def initialEnvironment : Environment :=
  [[], builtinScope]

def Stmt.isMain (node : Stmt) : Bool :=
  match node.unspanned with
  | .function name _ _ _ => name == "main"
  | _ => false

def Stmt.isMainWithParameters (node : Stmt) : Bool :=
  match node.unspanned with
  | .function name parameters _ _ => name == "main" && !parameters.isEmpty
  | _ => false

/-- Call a top-level `fn main()`, if the name still holds a function. -/
def callMain (self : Evaluator) (program : Program) (env : Environment) :
    Interp Value :=
  if program.statements.any Stmt.isMain then
    match env with
    | [] => stop .panic
    | scope :: _ =>
        match NameMap.get? scope "main" with
        | none => pure .null
        | some id => do
            let binding ← binding id
            match binding.value with
            | some (.function function) =>
                callValue self [] (.function function) []
            | _ => pure .null
  else pure .null

def runStatements (self : Evaluator) (program : Program) :
    Interp Value := do
  let (_, env) ← statements self [] program.statements initialEnvironment
  callMain self program env

/-- Execute the top-level statements, then `main`. -/
def runProgram (self : Evaluator) (program : Program) : Interp Value :=
  match program.statements.find? Stmt.isMainWithParameters with
  | some node => do
      modify fun state => { state with currentSpan := node.span }
      fail [] .mainParameters
  | none => runStatements self program

/-- How an execution ends, with the interpreter's last state. -/
abbrev Ending := Result Value × Interpreter

def execution (clock identity : Nat) (limits : Limits) (program : Program) :
    Comp effects Ending :=
  runProgram (evaluator clock) program (initialState identity limits program)

/-- The machine that is about to execute a program. -/
def launch (clock identity : Nat) (limits : Limits) (program : Program) :
    Machine effects Ending :=
  .start limits.steps (execution clock identity limits program)

/-- A run of a program under a host, with the given choices of threads. -/
def runOf (host : Host effects) (clock identity : Nat) (limits : Limits)
    (program : Program) (choices : List Nat) : Machine effects Ending :=
  (launch clock identity limits program).run (setup host) choices

end NetLang
