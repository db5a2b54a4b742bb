import NetLang.Relational.Widths
import NetLang.Theory.Transparency

/-!
# What schedules, batches and limits do not change

Under a host that only prints, a run that ends well does not depend on the
order in which threads take their turns, on the number of workers that run at
a time, or on limits it does not reach.
-/

namespace NetLang

variable [Formatting]

section Fragile

omit [Formatting] in
theorem WorkerEnd.rel_refl : ∀ done : WorkerEnd, done.Rel done
  | .finished outcome => by
      refine ⟨rfl, ?_⟩
      cases outcome.error? with
      | none => exact .none
      | some error => exact .some ⟨rfl, rfl⟩
  | .panicked | .outOfFuel => trivial

/-- The comparison of a program with itself. -/
def repeating : Comparison where
  rewriting := untouched
  strict := true
  sameLimits := true
  token := Eq
  lenient := nofun

/-- Unless an execution is left alone, it cannot end well. -/
theorem execution_fragile (clock identity : Nat) (limits : Limits)
    (program : Program) :
    (execution clock identity limits program).Fragile mainManners
      (Failed repeating) := by
  have lockstep : Lockstep repeating.mirror (Failed repeating)
      repeating.endings (execution clock identity limits program)
      (execution clock identity limits (untouched.program program)) :=
    lockstep_execution rfl rfl (Eq.refl identity)
      (by rintro a b _ _ rfl rfl; rfl) clock limits program
  apply lockstep.fragile rfl (fun _ => trivial)
  · intro job job' related
    exact workerThread_fragile rfl rfl related
  · intro done fails
    exact ⟨rfl, fails⟩
  · intro operation operation' reply related granted
    obtain ⟨reply', granted'⟩ := related.2.granted granted
    exact ⟨reply', related.2.replies granted granted'⟩
  · intro jobs jobs' ends spent related ended
    exact ⟨ends, List.forall₂_same.mpr fun done _ => done.rel_refl⟩

end Fragile

/-- At least as much room, and batches of any size. -/
structure Limits.Within (limits wider : Limits) : Prop where
  steps : limits.steps ≤ wider.steps
  callDepth : limits.callDepth ≤ wider.callDepth
  expressionDepth : limits.expressionDepth ≤ wider.expressionDepth
  output : limits.parallelOutputBytes ≤ wider.parallelOutputBytes

/-- The value of another execution, except that its records belong to it. -/
def SameValue (identity identity' : Nat) (value value' : Value) : Prop :=
  value.Rel ⟨Eq, fun token token' => token = identity ∧ token' = identity'⟩
    value'

/-- The same program under other limits; it gives up when the first execution
fails. -/
def rerunning (identity identity' : Nat) : Comparison where
  rewriting := untouched
  strict := true
  sameLimits := false
  token token token' := token = identity ∧ token' = identity'
  lenient := nofun

theorem rerunning_follows {limits limits' : Limits}
    (within : limits.Within limits') (workers : 1 ≤ limits.parallelWorkers)
    (workers' : 1 ≤ limits'.parallelWorkers) (clock identity identity' : Nat)
    (program : Program) :
    (following false false False).Holds (Failed repeating)
      (fun left right => right.1 = left.1 ∧
        (rerunning identity identity').endings left.2 right.2)
      (execution clock identity limits program)
      (execution clock identity' limits' program) := by
  have room : LimitsRel (rerunning identity identity').sameLimits limits
      limits' :=
    ⟨within.callDepth, within.expressionDepth, within.output,
      (fun same => by cases same), fun _ => ⟨workers, workers'⟩⟩
  have tokens : (rerunning identity identity').token identity identity' :=
    ⟨rfl, rfl⟩
  have faithful : ∀ {a b a' b'}, (rerunning identity identity').token a a' →
      (rerunning identity identity').token b b' → (a = b ↔ a' = b') := by
    rintro _ _ _ _ ⟨rfl, rfl⟩ ⟨rfl, rfl⟩
    simp
  have follows : (following false false False).Holds
      (Failed (rerunning identity identity'))
      (fun left right => right.1 = left.1 ∧
        (rerunning identity identity').endings left.2 right.2)
      (execution clock identity limits program)
      (execution clock identity' limits' (untouched.program program)) :=
    following_execution rfl rfl rfl tokens faithful room clock program
  rwa [Rewriting.program_untouched] at follows

/-- If a program that only prints runs to a value in some order of its
threads, it does so in every order, with other batches and with wider limits:
it prints the same lines and takes the same number of steps. -/
theorem schedules_agree {host : Host effects} (prints : host.Prints)
    {clock identity : Nat} {limits limits' : Limits} {program : Program}
    {choices : List Nat} {run : Machine effects Ending} {value : Value}
    {final : Interpreter}
    (started : executeWithLimits host clock identity limits program choices =
      .ok run) (finished : run.result? = some (.ok value, final))
    (only : OnlyPrints run.shared.calls) (within : limits.Within limits')
    (workers : 1 ≤ limits'.parallelWorkers ∧ limits'.parallelWorkers ≤ 64)
    (identity' : Nat) :
    (∀ schedule : Nat → Nat, ∃ turns run' ending,
      executeWithLimits host clock identity' limits' program
        ((List.range turns).map schedule) = .ok run' ∧
      run'.result? = some ending) ∧
    ∀ choices' run' ending,
      executeWithLimits host clock identity' limits' program choices' =
        .ok run' →
      run'.result? = some ending →
      ∃ value', ending.1 = .ok value' ∧
        SameValue identity identity' value value' ∧
        printedLines run'.shared.calls = printedLines run.shared.calls ∧
        run'.shared.budget + limits.steps =
          run.shared.budget + limits'.steps := by
  obtain ⟨accepted, sensible, rfl⟩ := executeWithLimits_ok.mp started
  have good : ¬ Failed repeating (.ok value, final) := by
    rintro ⟨_, reason, failed⟩
    cases failed
  obtain ⟨lines, ⟨result, last⟩, ⟨same, related⟩, ends, agree⟩ :=
    runs_follow prints (execution_fragile clock identity limits program)
      (rerunning_follows within sensible.1 workers.1 clock identity identity'
        program) within.steps finished good only
  cases result with
  | error reason => exact related.elim
  | ok value' =>
      constructor
      · intro schedule
        obtain ⟨turns, ended⟩ := ends schedule
        exact ⟨turns, _, _,
          executeWithLimits_ok.mpr ⟨accepted, workers, rfl⟩, ended⟩
      · intro choices' run' ending started' finished'
        obtain ⟨_, _, rfl⟩ := executeWithLimits_ok.mp started'
        obtain ⟨rfl, shown, spent⟩ := agree choices' ending finished'
        exact ⟨value', rfl, related, shown.trans same, spent⟩

section Example

/-- Two iterations that print, and a result. -/
def printingProgram : Program :=
  ⟨[.parallel "x" (.array [.string "a", .string "b"]) (.block
      [.expression (.call (.identifier "print") [.identifier "x"])]),
    .function "main" [] none (.block [.return (some (.integer 7))])]⟩

def printingHost : Host effects where
  answer _ call :=
    match call with
    | (_, .print _) | (_, .fork) => some (.ok ())
    | _ => some (.error "unsupported")
  refuse _ _ := none

omit [Formatting] in
theorem printingHost_prints : printingHost.Prints :=
  ⟨fun _ _ _ => rfl, fun _ _ => rfl, fun _ _ => rfl⟩

/-- A run in which the first thread that can goes on. -/
def printingRun : Machine effects Ending :=
  @runOf plainFormatting printingHost 9 0 {} printingProgram
    (List.replicate 60 0)

omit [Formatting] in
theorem printingRun_returns : returnedInteger printingRun = some 7 := by
  decide +kernel

omit [Formatting] in
theorem printingRun_lines :
    printedLines printingRun.shared.calls = ["a", "b"] := by
  decide +kernel

omit [Formatting] in
theorem printingRun_only : OnlyPrints printingRun.shared.calls := by
  have only : printingRun.shared.calls.all fun entry =>
      entry.1.2.prints := by decide +kernel
  exact fun entry member => List.all_eq_true.mp only entry member

omit [Formatting] in
theorem printingRun_starts :
    let _formatting : Formatting := plainFormatting
    executeWithLimits printingHost 9 0 {} printingProgram
      (List.replicate 60 0) = .ok printingRun := by
  intro _formatting
  exact executeWithLimits_ok.mpr ⟨by decide +kernel, by decide, rfl⟩

omit [Formatting] in
/-- One worker at a time prints what four of them print. -/
theorem schedules_agree_main :
    let _formatting : Formatting := plainFormatting
    ∃ turns run final, executeWithLimits printingHost 9 1
        { parallelWorkers := 1 } printingProgram
        ((List.range turns).map fun _ => 1) = .ok run ∧
      run.result? = some (.ok (.integer 7), final) ∧
      printedLines run.shared.calls = ["a", "b"] := by
  intro _formatting
  obtain ⟨final, finished⟩ := returnedInteger_some printingRun_returns
  have within : Limits.Within {} { parallelWorkers := 1 } :=
    ⟨le_rfl, le_rfl, le_rfl, le_rfl⟩
  obtain ⟨ends, agree⟩ := schedules_agree printingHost_prints
    printingRun_starts finished printingRun_only within (by decide) 1
  obtain ⟨turns, run, ⟨result, last⟩, started, finished⟩ := ends fun _ => 1
  obtain ⟨value, found, same, lines, _⟩ := agree _ _ _ started finished
  cases (found : result = _)
  cases value with
  | integer value =>
      cases (same : 7 = value)
      exact ⟨turns, run, last, started, finished,
        lines.trans printingRun_lines⟩
  | _ => exact False.elim same

end Example

end NetLang
