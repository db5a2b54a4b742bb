import NetLang.Relational.Joining

/-!
# Batches of any width

On the main thread a parallel statement that succeeds when it is left alone
does the same with batches of another size, and with more room.
-/

namespace NetLang

open Interp

variable {comparison : Comparison} {situation : Situation} {world : World}
  {before before' : Interpreter}

theorem States.direct {right : Interpreter}
    (states : States comparison situation world before right)
    (main : situation.worker = false) : before.runtime.buffer = none := by
  have unbuffered := states.buffer.trans main
  cases found : before.runtime.buffer with
  | none => rfl
  | some buffer =>
      rw [found] at unbuffered
      cases unbuffered

theorem States.direct'
    (states : States comparison situation world before before')
    (main : situation.worker = false) : before'.runtime.buffer = none := by
  have direct := states.direct main
  have runtime := states.runtime
  unfold RuntimeRel at runtime
  split at runtime
  · exact runtime
  · have buffers := runtime.2.2
    rw [direct] at buffers
    cases found : before'.runtime.buffer with
    | none => rfl
    | some buffer =>
        rw [found] at buffers
        cases buffers

/-- Both main threads print at once. -/
theorem following_printMain [Formatting] (fragile : Prop) :
    PrintsAlike (following false false fragile) comparison false := by
  intro situation world point text inside before before' states
  have shown : Shown comparison situation.worker before before
      (HostCall.shown (.print text) ++ [])
      (HostCall.shown (.print text) ++ []) := by
    simp [Shown, inside]
  unfold Interp.print
  simp only [states.direct inside, states.direct' inside]
  refine Manners.Follows.call trivial ?_
  intro reply granted
  cases (granted : reply = .ok ())
  exact ⟨.ok (), rfl, .ret ⟨world, .refl world, states, trivial, shown⟩⟩

/-- The states go on being related while iterations are prepared. -/
theorem States.advance
    (states : States comparison situation world before before')
    (parallel : comparison.serial = false) (count : Nat) :
    States comparison situation world (before.advance count)
      (before'.advance count) := by
  have runtime := states.runtime
  refine { states with runtime := ?_ }
  simp only [RuntimeRel, parallel, Bool.false_eq_true, if_false] at runtime ⊢
  exact ⟨runtime.1, congrArg (· + count) runtime.2.1, runtime.2.2⟩

section Widths

variable [Formatting] (parallel : comparison.serial = false)
  (strict : comparison.strict = true)

include parallel strict

/-- Related workers succeed with the same output. -/
theorem Worked.follow {jobs jobs' : List Worker}
    {outputs : List (List String)} {spent : Nat}
    (worked : Worked jobs outputs spent)
    (pairs : List.Forall₂ (WorkerRel comparison) jobs jobs') :
    Worked jobs' outputs spent := by
  induction worked generalizing jobs' with
  | nil =>
      cases pairs
      exact .nil
  | @cons job _ output _ _ _ alone _ induction =>
      cases pairs with
      | cons head tail =>
          have good : ¬ Hinders comparison (.ok ⟨output, .ok ()⟩) := by
            rintro ⟨_, fails⟩
            cases fails _ rfl
          obtain ⟨_, follow⟩ := following_executeWorker parallel strict head
          obtain ⟨lines', result', again, same, results⟩ :=
            follow _ _ _ alone good
          cases (same : lines' = [])
          cases result' with
          | error reason => exact results.elim
          | ok outcome =>
              obtain ⟨output', errors⟩ := results
              have clean : outcome.error? = none := by
                generalize outcome.error? = error at errors
                cases errors
                rfl
              rw [Outcome.eq_of_clean clean, output'] at again
              exact .cons again (induction tail)

omit [Formatting] strict in
/-- Corresponding iterations have related workers. -/
theorem States.workersOf
    (states : States comparison situation world before before')
    {env env' : Environment} (environments : EnvRel world env env')
    {given given' : Evaluator} (clocks : given'.clock = given.clock)
    (point : Point) (variableName : String) (body : Stmt)
    (host : HostId) (forks i : Nat) {values values' : List Value}
    (related : List.Forall₂ (Value.Rel (comparison.matching world)) values
      values') :
    List.Forall₂ (WorkerRel comparison)
      (NetLang.workersOf (fun index value host => ⟨given.clock, point,
        variableName, body, before.snapshotAt env, before.limits, index,
        value, host⟩) host forks i values)
      (NetLang.workersOf (fun index value host => ⟨given'.clock, point,
        variableName, comparison.rewriting.stmt body, before'.snapshotAt env',
        before'.limits, index, value, host⟩) host forks i values') := by
  induction related generalizing forks i with
  | nil => exact .nil
  | cons head tail induction =>
      exact .cons (states.workerRel parallel clocks point variableName body
        environments i _ _ rfl head) (induction (forks + 1) (i + 1))

variable (different : comparison.sameLimits = false)

include different

theorem following_iterations (clock : Nat) :
    ParallelAlike (following false false False) comparison false
      (evaluator clock) (evaluator clock) := by
  intro situation world env env' point variableName body values values'
    inside top fits environments related nonempty before before' states
  refine ⟨False.elim, ?_⟩
  rintro units lines ⟨result, after⟩ undisturbed good
  cases result with
  | error reason => exact absurd ⟨strict, reason, rfl⟩ good
  | ok done =>
      have lists := Value.relList_iff.mp related
      have main : before.inParallelWorker = false := states.worker.trans inside
      have main' : before'.inParallelWorker = false :=
        (states.inWorker parallel).trans main
      obtain ⟨positive, positive'⟩ := states.limits.workers different
      have width : 0 < before.width := by
        simp [Interpreter.width, main]
        omega
      have width' : 0 < before'.width := by
        simp [Interpreter.width, main']
        omega
      have buffers : Buffers false before := states.buffer.trans inside
      have returns : Returns (manners false) _ before units lines done after :=
        returns_reported.mp undisturbed
      obtain ⟨outputs, spent, worked, rfl, emitted⟩ :=
        worked_iterations width main buffers returns
      obtain ⟨rfl, rfl⟩ := emitted
      have pairs := states.workersOf parallel environments
        (Eq.refl (evaluator clock).clock) point variableName body
        before.runtime.host before.runtime.forks 0 lists
      have runtime := states.runtime
      simp only [RuntimeRel, parallel, Bool.false_eq_true, if_false]
        at runtime
      obtain ⟨hosts, forks, _⟩ := runtime
      rw [evaluator_clock] at pairs
      have follow := worked.follow parallel strict pairs
      rw [← hosts, ← forks] at follow
      have again := follow.iterations width' main' (states.direct' inside)
      rw [← lists.length_eq] at again
      have moved := states.advance parallel values.length
      have shown : Shown comparison situation.worker before
          (before.advance values.length) outputs.flatten
          outputs.flatten := by
        simp [Shown, parallel]
      refine ⟨outputs.flatten, (.ok .normal, before'.advance values.length),
        ?_, world, .refl world, moved, rfl, shown⟩
      unfold Comparison.counterpart
      simp only [parallel, Bool.false_eq_true, if_false]
      refine returns_bind.mpr ⟨_, _, (), _, 0, [], rfl, by simp,
        returns_reported.mpr again, .ret _⟩

/-- An execution that succeeds when it is left alone does the same with other
limits, if they leave it at least as much room. -/
theorem following_execution {identity identity' : Nat}
    (tokens : comparison.token identity identity')
    (faithful : ∀ {a b a' b'}, comparison.token a a' →
      comparison.token b b' → (a = b ↔ a' = b'))
    {limits limits' : Limits}
    (room : LimitsRel comparison.sameLimits limits limits') (clock : Nat)
    (program : Program) :
    (following false false False).Holds (Failed comparison)
      (fun left right => right.1 = left.1 ∧
        comparison.endings left.2 right.2)
      (execution clock identity limits program)
      (execution clock identity' limits'
        (comparison.rewriting.program program)) := by
  have supports : Supports (following false false False) comparison :=
    following_supports strict false false False
  have similar : Similar (following false false False) comparison false
      (evaluator clock) (evaluator clock) :=
    similar_evaluator supports (following_printMain False)
      (fun clock _ => following_iterations parallel strict different clock)
      clock
  have fits : ∀ node ∈ program.statements,
      node.Fits comparison.serial true := by
    intro node _
    rw [parallel]
    exact node.fits_parallel
  have alike : Alike (following false false False) comparison .initial
      (World.initial comparison) comparison.values
      (runProgram (evaluator clock) program)
      (runProgram (evaluator clock) (comparison.rewriting.program program)) :=
    alike_runProgram similar rfl supports (following_printMain False)
      (following_iterations parallel strict different clock) rfl program fits
      (initialEnvironment_rel comparison)
  apply Simulation.mono (alike _ _
    (states_initial comparison program tokens faithful room))
  rintro ⟨lines, result, after⟩ ⟨lines', result', after'⟩
    ⟨larger, extends', states, results, shown⟩
  have same := states.matching_eq parallel
  unfold Comparison.values at results
  rw [same] at results
  refine ⟨?_, results⟩
  simpa [Shown, parallel] using shown

end Widths

end NetLang
