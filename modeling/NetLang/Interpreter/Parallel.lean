import NetLang.Interpreter.Expression
import NetLang.Library.Chunks

/-!
# Parallel statements

A parallel statement runs its iterations in batches.  Outside of a worker a
batch runs on threads of its own; inside of one, iterations run one after the
other in the same thread.  Each iteration has an interpreter that starts from
a snapshot, and its print output is delivered when its batch has been joined.
-/

namespace NetLang

open Interp

/-- The state and the environment in which a worker starts. -/
def Worker.start (worker : Worker) : Interpreter where
  types := worker.snapshot.types
  returnType := none
  currentSpan := worker.snapshot.span
  runtime :=
    { host := worker.host
      forks := 0
      buffer := some ⟨[], 0, worker.limits.parallelOutputBytes⟩ }
  bindings := worker.snapshot.bindings
  functions := worker.snapshot.functions
  limits := worker.limits
  expressionDepth := 0
  callStack := worker.snapshot.callStack
  capturedBindings := worker.snapshot.bindings.length
  inParallelWorker := true
  attempts := 0
  workers := worker.point :: worker.snapshot.workers
  snapshot := some worker.snapshot

def Interpreter.output (state : Interpreter) : List String :=
  (state.runtime.buffer.map WorkerBuffer.output).getD []

/-- What the flow of a body means for its iteration. -/
def finishIteration (point : Point) : Flow → Interp Unit
  | .normal | .continue => pure ()
  | .break => fail point .breakIteration
  | .return _ => fail point .returnIteration

def iterationBody (self : Evaluator) (worker : Worker) : Interp Unit := do
  let id ← allocate ⟨none, some worker.value, true⟩
  let (flow, _) ← self.body (1 :: worker.point) worker.body
    ([(worker.variableName, id)] :: worker.snapshot.env)
  finishIteration worker.point flow

def Worker.outcome (worker : Worker) (after : Interpreter) :
    Result Unit → Result Outcome
  | .ok () => .ok ⟨after.output, .ok ()⟩
  | .error (.error error) => .ok ⟨after.output, .error
      { error with kind := .iteration (worker.index + 1) error.kind }⟩
  | .error .panic => .error .panic
  | .error .outOfFuel => .error .outOfFuel

def executeWorker (self : Evaluator) (worker : Worker) :
    Comp effects (Result Outcome) :=
  (iterationBody self worker worker.start).bind fun (result, after) =>
    .ret (worker.outcome after result)

def WorkerEnd.ofResult : Result Outcome → WorkerEnd
  | .ok outcome => .finished outcome
  | .error .outOfFuel => .outOfFuel
  | .error _ => .panicked

/-- Run jobs one after the other in this thread. -/
def runInline (self : Evaluator) : List Worker → Interp (List Outcome)
  | [] => pure []
  | job :: rest => do
      let outcome ← fun state => (executeWorker self job).bind fun result =>
        .ret (result, state)
      let outcomes ← runInline self rest
      pure (outcome :: outcomes)

/-- The outcome of a joined worker. -/
def joinOutcome (point : Point) (job : Worker) :
    WorkerEnd → Interp Outcome
  | .finished outcome => pure outcome
  | .panicked => fun state => .ret (.ok ⟨[], .error
      (failure point (.iterationPanicked (job.index + 1)) state)⟩, state)
  | .outOfFuel => stop .outOfFuel

/-- The outcomes of the joined workers, in job order. -/
def joinOutcomes (point : Point) :
    List Worker → List WorkerEnd → Interp (List Outcome)
  | job :: jobs, done :: ends => do
      let outcome ← joinOutcome point job done
      let outcomes ← joinOutcomes point jobs ends
      pure (outcome :: outcomes)
  | _, _ => pure []

/-- The outcome of the job whose thread could not be started. -/
def refusedOutcome (point : Point) (jobs : List Worker) (started : Nat) :
    Option String → Interp (List Outcome)
  | none => pure []
  | some reason => fun state =>
      let index := (jobs[started]?.map Worker.index).getD 0
      .ret (.ok [⟨[], .error
        (failure point (.threadRefused (index + 1) reason) state)⟩], state)

def runThreads (point : Point) (jobs : List Worker) :
    Interp (List Outcome) := do
  let (ends, refusal) ← spawn jobs
  let outcomes ← joinOutcomes point jobs ends
  let refused ← refusedOutcome point jobs ends.length refusal
  pure (outcomes ++ refused)

/-- Print lines up to the first that fails, and return its error. -/
def deliverLines (point : Point) :
    List String → Interp (Option RuntimeError)
  | [] => pure none
  | line :: rest => fun state => (print point line state).bind fun
      | (.ok (), after) => deliverLines point rest after
      | (.error (.error error), after) => .ret (.ok (some error), after)
      | (.error reason, after) => .ret (.error reason, after)

def Outcome.error? (outcome : Outcome) : Option RuntimeError :=
  match outcome.result with
  | .ok () => none
  | .error error => some error

/-- Deliver the output of every outcome, and return the first error. -/
def deliver (point : Point) :
    List Outcome → Option RuntimeError → Interp (Option RuntimeError)
  | [], first => pure first
  | outcome :: rest, first => do
      let lost ← deliverLines point outcome.output
      deliver point rest ((first.or lost).or outcome.error?)

/-- A step and a host for every iteration of a batch. -/
def prepare (point : Point) (job : Nat → Value → HostId → Worker) :
    Nat → List Value → Interp (List Worker)
  | _, [] => pure []
  | i, value :: rest => do
      tick point
      let host ← fork point
      let jobs ← prepare point job (i + 1) rest
      pure (job i value host :: jobs)

def runJobs (self : Evaluator) (point : Point) (jobs : List Worker) :
    Interp (List Outcome) := do
  let state ← get
  if state.inParallelWorker then runInline self jobs
  else runThreads point jobs

def finishBatch : Option RuntimeError → Interp Unit
  | none => pure ()
  | some error => stop (.error error)

def batches (self : Evaluator) (point : Point)
    (job : Nat → Value → HostId → Worker) (width : Nat) :
    Nat → List (List Value) → Interp Unit
  | _, [] => pure ()
  | batch, values :: rest => do
      let jobs ← prepare point job (batch * width) values
      let outcomes ← runJobs self point jobs
      let first ← deliver point outcomes none
      finishBatch first
      batches self point job width (batch + 1) rest

def Interpreter.snapshotAt (state : Interpreter) (env : Environment) :
    Snapshot where
  types := state.types
  span := state.currentSpan
  bindings := state.bindings
  functions := state.functions
  env := env
  callStack := state.callStack
  workers := state.workers

def Interpreter.width (state : Interpreter) : Nat :=
  if state.inParallelWorker then 1 else state.limits.parallelWorkers

def iterations (self : Evaluator) (point : Point) (env : Environment)
    (variableName : String) (body : Stmt) (values : List Value) :
    Interp Unit := do
  let state ← get
  let job := fun index value host =>
    ⟨self.clock, point, variableName, body, state.snapshotAt env,
      state.limits, index, value, host⟩
  batches self point job state.width 0 (chunks state.width values)

def parallel [Formatting] (self : Evaluator) (point : Point)
    (env : Environment) (variableName : String) (iterable : Expr)
    (body : Stmt) : Interp Unit := do
  let values ← self.expression (0 :: point) iterable env
  match values with
  | .array [] => pure ()
  | .array values =>
      reported (.joined point)
        (iterations self point env variableName body values)
  | _ => fail point .parallelArray

end NetLang
