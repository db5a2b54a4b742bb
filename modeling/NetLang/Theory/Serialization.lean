import NetLang.Relational.Serial
import NetLang.Semantic.Control
import NetLang.Theory.Independence

/-!
# Parallel statements refine serial loops

When every `parallel` becomes a `for`, a program that only prints and runs to
a value still does so: it prints the same lines in the same order, and takes
the same number of steps.
-/

namespace NetLang

section Fits

namespace Stmt

mutual

/-- In tame code a `return` leaves no parallel body. -/
theorem Tame.fits (returns : Bool) : ∀ node : Stmt, node.Tame →
    (returns = false → Jump.return ∉ node.jumps) → node.Fits true returns
  | .return _, _, leaves => by
      cases returns with
      | true => rfl
      | false => exact absurd List.mem_cons_self (leaves rfl)
  | .located _ inner, tame, leaves => Tame.fits returns inner tame leaves
  | .parallel _ _ body, tame, _ => by
      rw [Fits, Bool.not_true, Bool.and_false]
      refine Tame.fits false body tame.2 fun _ member => ?_
      cases tame.1 _ member
  | .match _ arms, tame, leaves => TameArms.fits returns arms tame leaves
  | .block list, tame, leaves => TameAll.fits returns list tame leaves
  | .if _ thenBranch elseBranch, tame, leaves =>
      ⟨Tame.fits returns thenBranch tame.1 fun outside member =>
          leaves outside (List.mem_append_left _ member),
        TameOptional.fits returns elseBranch tame.2 fun outside member =>
          leaves outside (List.mem_append_right _ member)⟩
  | .while _ body, tame, leaves => Tame.fits returns body tame
      fun outside member => leaves outside (by simp [jumps, member])
  | .for _ _ body, tame, leaves => Tame.fits returns body tame
      fun outside member => leaves outside (by simp [jumps, member])
  | .function _ _ _ body, tame, _ => Tame.fits true body tame.2 nofun
  | .type _ _, _, _ | .break, _, _ | .continue, _, _ | .let _ _ _, _, _
  | .expression _, _, _ => trivial

theorem TameOptional.fits (returns : Bool) : ∀ node : Option Stmt,
    TameOptional node →
    (returns = false → Jump.return ∉ optionalJumps node) →
    FitsOption true returns node
  | none, _, _ => trivial
  | some node, tame, leaves => Tame.fits returns node tame leaves

theorem TameAll.fits (returns : Bool) : ∀ list : List Stmt, TameAll list →
    (returns = false → Jump.return ∉ jumpsOf list) →
    FitsList true returns list
  | [], _, _ => trivial
  | node :: rest, tame, leaves =>
      ⟨Tame.fits returns node tame.1 fun outside member =>
          leaves outside (List.mem_append_left _ member),
        TameAll.fits returns rest tame.2 fun outside member =>
          leaves outside (List.mem_append_right _ member)⟩

theorem TameArms.fits (returns : Bool) : ∀ arms : List (Pattern × Stmt),
    TameArms arms → (returns = false → Jump.return ∉ armJumps arms) →
    FitsArms true returns arms
  | [], _, _ => trivial
  | (_, body) :: rest, tame, leaves =>
      ⟨Tame.fits returns body tame.1 fun outside member =>
          leaves outside (List.mem_append_left _ member),
        TameArms.fits returns rest tame.2 fun outside member =>
          leaves outside (List.mem_append_right _ member)⟩

end

end Stmt

/-- In an accepted program no `return` leaves a parallel body. -/
theorem analyze_fits {program : Program} (accepted : analyze program = []) :
    ∀ node ∈ program.statements, node.Fits true true := by
  intro node member
  obtain ⟨tame, _⟩ := analyze_tame accepted node member
  exact Stmt.Tame.fits true node tame nofun

end Fits

variable [Formatting]

/-- The same program with serial loops. -/
def serializing (identity identity' : Nat) : Comparison where
  rewriting := ⟨false, false, true⟩
  strict := true
  sameLimits := false
  token token token' := token = identity ∧ token' = identity'
  lenient := nofun

/-- The value of another execution, except that its functions have other
handles and its records belong to it. -/
def RenamedValue (identity identity' : Nat) (value value' : Value) : Prop :=
  ∃ matching : Matching, matching.Faithful ∧
    (∀ token token', matching.token token token' →
      token = identity ∧ token' = identity') ∧
    value.Rel matching value'

theorem serializing_follows {limits limits' : Limits}
    (within : limits.Within limits') (workers : 1 ≤ limits.parallelWorkers)
    (workers' : 1 ≤ limits'.parallelWorkers) (clock identity identity' : Nat)
    {program : Program} (accepted : analyze program = []) :
    (following false false False).Holds (Failed repeating)
      (fun left right => right.1 = left.1 ∧
        ResultRel (RenamedValue identity identity') left.2.1 right.2.1)
      (execution clock identity limits program)
      (execution clock identity' limits' program.serialize) := by
  have room : LimitsRel (serializing identity identity').sameLimits limits
      limits' :=
    ⟨within.callDepth, within.expressionDepth, within.output,
      (fun same => by cases same), fun _ => ⟨workers, workers'⟩⟩
  have tokens : (serializing identity identity').token identity identity' :=
    ⟨rfl, rfl⟩
  have faithful : ∀ {a b a' b'}, (serializing identity identity').token a a' →
      (serializing identity identity').token b b' → (a = b ↔ a' = b') := by
    rintro _ _ _ _ ⟨rfl, rfl⟩ ⟨rfl, rfl⟩
    simp
  apply Simulation.mono (following_serialExecution rfl rfl rfl tokens faithful
    room clock (analyze_fits accepted))
  rintro ⟨lines, result, after⟩ ⟨lines', result', after'⟩
    ⟨same, larger, faithful, results⟩
  refine ⟨same, ?_⟩
  cases result with
  | error reason =>
      cases result' with
      | error reason' => exact (results : StopRel reason reason')
      | ok value' => exact results.elim
  | ok value =>
      cases result' with
      | error reason' => exact results.elim
      | ok value' => exact ⟨_, faithful, fun _ _ => id, results⟩

/-- A program that is accepted is so with serial loops for its parallel
statements.  If it only prints and runs to a value in some order of its
threads, then the loops print the same lines, give the same value, and take
the same number of steps. -/
theorem parallel_refines_serial {program : Program}
    (accepted : analyze program = []) :
    analyze program.serialize = [] ∧
      ∀ (host : Host effects) (clock identity identity' : Nat)
        (limits limits' : Limits) (choices : List Nat)
        (run : Machine effects Ending) (value : Value) (final : Interpreter),
        host.Prints → limits.Within limits' →
        1 ≤ limits'.parallelWorkers ∧ limits'.parallelWorkers ≤ 64 →
        executeWithLimits host clock identity limits program choices =
          .ok run →
        run.result? = some (.ok value, final) →
        OnlyPrints run.shared.calls →
        ∃ value', RenamedValue identity identity' value value' ∧
          (∀ schedule : Nat → Nat, ∃ turns run' final',
            executeWithLimits host clock identity' limits' program.serialize
              ((List.range turns).map schedule) = .ok run' ∧
            run'.result? = some (.ok value', final')) ∧
          ∀ choices' run' ending,
            executeWithLimits host clock identity' limits' program.serialize
              choices' = .ok run' →
            run'.result? = some ending →
            ending.1 = .ok value' ∧
              printedLines run'.shared.calls = printedLines run.shared.calls ∧
              run'.shared.budget + limits.steps =
                run.shared.budget + limits'.steps := by
  have serialized : analyze program.serialize = [] :=
    analyze_rewriting ⟨false, false, true⟩ program accepted
  refine ⟨serialized, ?_⟩
  intro host clock identity identity' limits limits' choices run value final
    prints within workers started finished only
  obtain ⟨_, sensible, rfl⟩ := executeWithLimits_ok.mp started
  have good : ¬ Failed repeating (.ok value, final) := by
    rintro ⟨_, reason, failed⟩
    cases failed
  obtain ⟨lines, ⟨result, last⟩, ⟨same, related⟩, ends, agree⟩ :=
    runs_follow prints (execution_fragile clock identity limits program)
      (serializing_follows within sensible.1 workers.1 clock identity identity'
        accepted) within.steps finished good only
  cases result with
  | error reason => exact related.elim
  | ok value' =>
      refine ⟨value', related, ?_, ?_⟩
      · intro schedule
        obtain ⟨turns, ended⟩ := ends schedule
        exact ⟨turns, _, _,
          executeWithLimits_ok.mpr ⟨serialized, workers, rfl⟩, ended⟩
      · intro choices' run' ending started' finished'
        obtain ⟨_, _, rfl⟩ := executeWithLimits_ok.mp started'
        obtain ⟨rfl, shown, spent⟩ := agree choices' ending finished'
        exact ⟨rfl, shown.trans same, spent⟩

section Example

omit [Formatting] in
/-- A serial loop prints what the workers print. -/
theorem parallel_refines_serial_main :
    let _formatting : Formatting := plainFormatting
    ∃ turns run final, executeWithLimits printingHost 9 1 {}
        printingProgram.serialize ((List.range turns).map fun _ => 0) =
          .ok run ∧
      run.result? = some (.ok (.integer 7), final) ∧
      printedLines run.shared.calls = ["a", "b"] := by
  intro _formatting
  have accepted : analyze printingProgram = [] := by decide +kernel
  obtain ⟨final, finished⟩ := returnedInteger_some printingRun_returns
  obtain ⟨_, refines⟩ := parallel_refines_serial accepted
  obtain ⟨value, ⟨matching, _, _, same⟩, ends, agree⟩ := refines printingHost 9
    0 1 {} {} (List.replicate 60 0) printingRun (.integer 7) final
    printingHost_prints ⟨le_rfl, le_rfl, le_rfl, le_rfl⟩ (by decide)
    printingRun_starts finished printingRun_only
  cases value with
  | integer value =>
      cases (same : 7 = value)
      obtain ⟨turns, run, last, started, finished⟩ := ends fun _ => 0
      obtain ⟨_, lines, _⟩ := agree _ _ _ started finished
      exact ⟨turns, run, last, started, finished,
        lines.trans printingRun_lines⟩
  | _ => exact False.elim same

end Example

end NetLang
