import NetLang.Interpreter.Execute
import NetLang.Semantic.Analyze

/-!
# The entry point

A program is analyzed and its limits are checked before anything is executed.
-/

namespace NetLang

inductive ExecutionError where
  | semantic (errors : List SemanticError)
  | runtime (error : RuntimeError)
deriving Repr

/-- The run of a program under the given choices of threads, if the program is
accepted and the limits make sense. -/
def executeWithLimits [Formatting] (host : Host effects)
    (clock identity : Nat) (limits : Limits) (program : Program)
    (choices : List Nat) : Except ExecutionError (Machine effects Ending) :=
  match analyze program with
  | [] =>
      if 1 ≤ limits.parallelWorkers ∧ limits.parallelWorkers ≤ 64 then
        .ok (runOf host clock identity limits program choices)
      else .error (.runtime ⟨.workerLimit, [], none, []⟩)
  | errors => .error (.semantic errors)

/-- Only accepted programs with sensible limits are run. -/
theorem executeWithLimits_ok [Formatting] {host : Host effects}
    {clock identity : Nat} {limits : Limits} {program : Program}
    {choices : List Nat} {run : Machine effects Ending} :
    executeWithLimits host clock identity limits program choices = .ok run ↔
      analyze program = [] ∧
        (1 ≤ limits.parallelWorkers ∧ limits.parallelWorkers ≤ 64) ∧
        run = runOf host clock identity limits program choices := by
  unfold executeWithLimits
  cases analyze program with
  | nil =>
      dsimp only
      split
      case isTrue sensible => simp [sensible, eq_comm]
      case isFalse senseless => simp [senseless]
  | cons first rest => simp

end NetLang
