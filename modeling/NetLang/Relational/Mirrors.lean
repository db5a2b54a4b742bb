import NetLang.Library.Lockstep
import NetLang.Relational.Batches
import NetLang.Relational.Programs

/-!
# Executions in step

When parallel statements stay parallel, an execution of a program and one of
its rewriting perform corresponding actions: their workers correspond, and so
do their calls of the host.
-/

namespace NetLang

open Interp

namespace Stmt

mutual

/-- Without serialization there is nothing that does not fit. -/
theorem fits_parallel : ∀ node : Stmt, node.Fits false true
  | .return _ => rfl
  | .located _ inner | .parallel _ _ inner | .while _ inner
  | .for _ _ inner | .function _ _ _ inner => fits_parallel inner
  | .match _ arms => fitsArms_parallel arms
  | .block list => fitsList_parallel list
  | .if _ thenBranch elseBranch =>
      ⟨fits_parallel thenBranch, fitsOption_parallel elseBranch⟩
  | .type _ _ | .break | .continue | .let _ _ _ | .expression _ => trivial

theorem fitsOption_parallel : ∀ node : Option Stmt,
    FitsOption false true node
  | none => trivial
  | some node => fits_parallel node

theorem fitsList_parallel : ∀ list : List Stmt, FitsList false true list
  | [] => trivial
  | node :: rest => ⟨fits_parallel node, fitsList_parallel rest⟩

theorem fitsArms_parallel : ∀ arms : List (Pattern × Stmt),
    FitsArms false true arms
  | [] => trivial
  | (_, body) :: rest => ⟨fits_parallel body, fitsArms_parallel rest⟩

end

end Stmt

/-- Ends of corresponding workers. -/
def WorkerEnd.Rel : WorkerEnd → WorkerEnd → Prop
  | .finished outcome, .finished outcome' => OutcomeRel outcome outcome'
  | .panicked, .panicked | .outOfFuel, .outOfFuel => True
  | _, _ => False

/-- An end after which its batch fails. -/
def WorkerEnd.Fails : WorkerEnd → Prop
  | .finished outcome => outcome.Fails
  | .panicked | .outOfFuel => True

/-- A result that makes the batch of its worker fail. -/
def Hinders (comparison : Comparison) (result : Result Outcome) : Prop :=
  comparison.strict = true ∧ ∀ outcome, result = .ok outcome → outcome.Fails

/-- The right execution makes the calls of the left one, on the same hosts,
as long as it gets the same replies. -/
def Comparison.mirror (comparison : Comparison) : Mirror effects where
  strict := comparison.strict = true
  calls operation operation' := operation'.1 = operation.1 ∧
    operation.2.Rel ⟨Eq, comparison.token⟩ operation'.2
  replies operation operation' :=
    operation.2.ReplyRel ⟨Eq, comparison.token⟩ operation'.2
  jobs := WorkerRel comparison
  ends := WorkerEnd.Rel
  failed done := comparison.strict = true ∧ done.Fails

/-- Executions in step print nothing of their own. -/
abbrev Comparison.lockstep (comparison : Comparison) :
    Simulation effects String :=
  comparison.mirror.simulation String

/-- The right buffer takes every line that the left one takes. -/
theorem BufferRel.push {same : Bool} {buffer buffer' : WorkerBuffer}
    (related : BufferRel same buffer buffer') (text : String) :
    buffer.push text = none ∧ (same = true → buffer'.push text = none) ∨
      ∃ after after', buffer.push text = some after ∧
        buffer'.push text = some after' ∧ BufferRel same after after' := by
  unfold WorkerBuffer.push
  rw [related.outputBytes]
  split
  · exact .inl ⟨rfl, fun _ => rfl⟩
  · next bytes sized =>
      by_cases room : bytes ≤ buffer.outputLimit
      · have room' := room.trans related.limit
        rw [if_pos room, if_pos room']
        exact .inr ⟨_, _, rfl, rfl, congrArg (· ++ [text]) related.output, rfl,
          related.limit, related.equal⟩
      · rw [if_neg room]
        refine .inl ⟨rfl, fun equal => ?_⟩
        rw [related.equal equal, if_neg room]

section

variable {α β : Type} {comparison : Comparison} {situation : Situation}
  {world : World} (parallel : comparison.serial = false)

include parallel

theorem lockstep_supports : Supports comparison.lockstep comparison where
  strict := Iff.rfl
  calls aligned _ related := by
    obtain ⟨same, matching⟩ := aligned parallel
    exact ⟨same, matching ▸ related⟩
  replies aligned _ _ heard := by
    rw [(aligned parallel).2]
    exact heard

omit parallel in
variable (comparison) in
/-- A strict comparison, or the same limits on both sides. -/
theorem strict_or_same : comparison.strict = true ∨
    comparison.sameLimits = true := by
  cases strict : comparison.strict with
  | true => exact .inl rfl
  | false => exact .inr (comparison.lenient strict).2.2

theorem lockstep_print {worker : Bool} :
    PrintsAlike comparison.lockstep comparison worker := by
  intro situation world point text inside before before' states
  have runtime := states.runtime
  simp only [RuntimeRel, parallel, Bool.false_eq_true, if_false] at runtime
  obtain ⟨hosts, forks, buffers⟩ := runtime
  unfold Interp.print
  obtain ⟨missing, missing'⟩ | ⟨buffer, buffer', found, found', related⟩ :=
    optionRel_cases buffers
  · simp only [missing, missing']
    refine comparison.lockstep.call ⟨hosts, rfl⟩ ?_
    intro reply reply' heard
    cases reply with
    | error message =>
        cases reply' with
        | error message' =>
            cases (heard : message = message')
            exact holds_ret (.refl world) states
              (failure_rel states point point (.host message)) rfl
        | ok done => exact False.elim heard
    | ok done =>
        cases reply' with
        | error message => exact False.elim heard
        | ok done' => exact holds_ret (.refl world) states trivial rfl
  · simp only [found, found']
    obtain ⟨full, full'⟩ | ⟨after, after', pushed, pushed', grown⟩ :=
      related.push text
    · rw [full]
      obtain strict | same := strict_or_same comparison
      · exact holds_failed strict
      · rw [full' same]
        exact holds_ret (.refl world) states
          (failure_rel states point point .outputLimit) rfl
    · rw [pushed, pushed']
      refine comparison.lockstep.ret ⟨world, .refl world, ?_, trivial, ?_⟩
      · refine { states with
          runtime := ?_
          buffer := ?_ }
        · simp only [RuntimeRel, parallel, Bool.false_eq_true, if_false]
          exact ⟨hosts, forks, .some grown⟩
        · rw [← states.buffer, found]
          rfl
      · simp [Shown, parallel]

/-- Related workers have buffered the same lines. -/
theorem States.output_eq {before before' : Interpreter}
    (states : States comparison situation world before before') :
    before'.output = before.output := by
  have runtime := states.runtime
  simp only [RuntimeRel, parallel, Bool.false_eq_true, if_false] at runtime
  unfold Interpreter.output
  obtain ⟨missing, missing'⟩ | ⟨buffer, buffer', found, found', related⟩ :=
    optionRel_cases runtime.2.2
  · rw [missing, missing']
  · rw [found, found']
    exact related.output

section Workers

variable {simulation : Simulation effects String} {given given' : Evaluator}
  (similar : Similar simulation comparison true given given')
  {job job' : Worker} (related : WorkerRel comparison job job')

include similar related

theorem holds_iterationBody : ∃ world, simulation.Holds (Failed comparison)
    (Ended comparison ⟨0, true, true⟩ world (fun _ _ _ => True) job.start)
    (iterationBody given job job.start)
    (iterationBody given' job' job'.start) := by
  obtain ⟨world, environments, values, states⟩ := related.start
  refine ⟨world, ?_⟩
  have held : BindingRel comparison world ⟨none, some job.value, true⟩
      ⟨none, some job'.value, true⟩ :=
    ⟨rfl, comparison.keep_none.symm, .some values⟩
  have fits : job.body.Fits comparison.serial true := by
    rw [parallel]
    exact job.body.fits_parallel
  suffices alike : Alike simulation comparison ⟨0, true, true⟩ world
      (fun _ _ _ => True) (iterationBody given job)
      (iterationBody given' job') from alike _ _ states
  unfold iterationBody
  apply (alike_allocate held).bind
  intro larger extends' id id' slot
  have scope : ScopeRel larger [(job.variableName, id)]
      [(job'.variableName, id')] := .cons ⟨related.variableName.symm, slot⟩ .nil
  rw [related.point, related.body]
  apply (similar.body (1 :: job.point) job.body rfl rfl fits
    (.cons scope (environments.mono extends'))).bind
  rintro largest further ⟨flow, _⟩ ⟨flow', _⟩ ⟨flows, _⟩
  match flow, flow', flows with
  | .normal, .normal, _ | .continue, .continue, _ => exact alike_pure trivial
  | .break, .break, _ | .return _, .return _, _ => exact alike_fail

theorem holds_executeWorker : simulation.Holds (Hinders comparison)
    (fun left right => right.1 = left.1 ∧
      ResultRel OutcomeRel left.2 right.2)
    (executeWorker given job) (executeWorker given' job') := by
  obtain ⟨world, holds⟩ := holds_iterationBody parallel similar related
  apply simulation.bind holds
  · rintro ⟨result, after⟩ ⟨strict, reason, same⟩
    cases (same : result = _)
    refine ⟨strict, fun outcome ended => ?_⟩
    cases reason with
    | error error =>
        cases ended
        rfl
    | panic => cases ended
    | outOfFuel => cases ended
  · rintro lines ⟨result, after⟩ lines' ⟨result', after'⟩
      ⟨larger, extends', states, results, shown⟩
    apply simulation.ret
    have output := states.output_eq parallel
    have same : lines' = lines := by simpa [Shown, parallel] using shown
    refine ⟨by simp [same], ?_⟩
    match result, result', results with
    | .ok _, .ok _, _ => exact ⟨output, .none⟩
    | .error (.error _), .error (.error _), ⟨kind, stack⟩ =>
        refine ⟨output, .some ⟨?_, stack⟩⟩
        simp only [related.index, kind]
    | .error .panic, .error .panic, _ => trivial
    | .error .outOfFuel, .error .outOfFuel, _ => trivial

end Workers

section Jobs

variable {worker : Bool} {given given' : Evaluator} {jobs jobs' : List Worker}
  (point : Point)

theorem alike_runInline {simulation : Simulation effects String}
    (similar : Similar simulation comparison true given given')
    (pairs : List.Forall₂ (WorkerRel comparison) jobs jobs') :
    AlikeUnless simulation comparison situation world SomeFails
      (fun _ => List.Forall₂ OutcomeRel) (runInline given jobs)
      (runInline given' jobs') := by
  induction pairs generalizing world with
  | nil =>
      have nothing : Alike simulation comparison situation world
        (fun _ => List.Forall₂ OutcomeRel) (pure []) (pure []) :=
          alike_pure .nil
      exact nothing.unless
  | @cons job job' rest rest' head tail induction =>
      have ran : AlikeUnless simulation comparison situation world
          Outcome.Fails (fun _ => OutcomeRel)
          (fun state => (executeWorker given job).bind fun result =>
            .ret (result, state))
          (fun state => (executeWorker given' job').bind fun result =>
            .ret (result, state)) := by
        intro before before' states
        apply simulation.bind (holds_executeWorker parallel similar head)
        · exact fun result hinders => hinders
        · rintro lines result lines' result' ⟨same, results⟩
          apply simulation.ret
          refine ⟨world, .refl world, states, results, ?_⟩
          have sameLines : lines' = lines := same
          simp [Shown, parallel, sameLines]
      apply ran.bind
      · intro outcome fails
        apply Spoiled.bind_of_all
        intro outcomes
        exact spoiled_pure ⟨outcome, List.mem_cons_self, fails⟩
      · intro larger extends' outcome outcome' outcomes
        apply induction.bind
        · rintro results ⟨other, member, fails⟩
          exact spoiled_pure ⟨other, List.mem_cons_of_mem _ member, fails⟩
        · intro largest further results results' all
          exact Alike.unless (alike_pure (.cons outcomes all))

omit parallel in
theorem alike_joinOutcome {simulation : Simulation effects String}
    {job job' : Worker} (related : WorkerRel comparison job job')
    {done done' : WorkerEnd} (ended : done.Rel done') :
    AlikeUnless simulation comparison situation world Outcome.Fails
      (fun _ => OutcomeRel) (joinOutcome point job done)
      (joinOutcome point job' done') := by
  apply Alike.unless
  match done, done', ended with
  | .finished _, .finished _, outcomes => exact alike_pure outcomes
  | .outOfFuel, .outOfFuel, _ => exact alike_stop trivial
  | .panicked, .panicked, _ =>
      intro before before' states
      refine holds_ret (.refl world) states ⟨rfl, .some ?_⟩ rfl
      rw [related.index]
      exact failure_rel states point point _

omit parallel in
theorem spoiled_joinOutcome {job : Worker} {done : WorkerEnd}
    (fails : done.Fails) :
    Spoiled comparison Outcome.Fails (joinOutcome point job done) := by
  intro strict state
  cases done with
  | finished outcome => exact Broken.ok strict fails
  | panicked => exact Broken.ok strict rfl
  | outOfFuel => exact Broken.error strict

omit parallel in
theorem alike_joinOutcomes {simulation : Simulation effects String}
    (pairs : List.Forall₂ (WorkerRel comparison) jobs jobs')
    {ends ends' : List WorkerEnd}
    (ended : List.Forall₂ WorkerEnd.Rel ends ends') :
    AlikeUnless simulation comparison situation world SomeFails
      (fun _ => List.Forall₂ OutcomeRel) (joinOutcomes point jobs ends)
      (joinOutcomes point jobs' ends') := by
  have nothing : ∀ {world}, AlikeUnless simulation comparison situation world
      SomeFails (fun _ => List.Forall₂ OutcomeRel) (pure []) (pure []) :=
    fun {world} => Alike.unless (alike_pure .nil)
  induction pairs generalizing world ends ends' with
  | nil => exact nothing
  | cons head tail induction =>
      cases ended with
      | nil => exact nothing
      | cons first later =>
          apply (alike_joinOutcome point head first).bind
          · intro outcome fails
            apply Spoiled.bind_of_all
            intro outcomes
            exact spoiled_pure ⟨outcome, List.mem_cons_self, fails⟩
          · intro larger extends' outcome outcome' outcomes
            apply (induction later).bind
            · rintro results ⟨other, member, fails⟩
              exact spoiled_pure ⟨other, List.mem_cons_of_mem _ member, fails⟩
            · intro largest further results results' all
              exact Alike.unless (alike_pure (.cons outcomes all))

omit parallel in
theorem spoiled_joinOutcomes {ends : List WorkerEnd}
    (short : ends.length ≤ jobs.length) (failed : ∃ done ∈ ends, done.Fails) :
    Spoiled comparison SomeFails (joinOutcomes point jobs ends) := by
  induction jobs generalizing ends with
  | nil =>
      obtain ⟨done, member, _⟩ := failed
      rw [List.length_eq_zero_iff.mp (Nat.le_zero.mp short)] at member
      cases member
  | cons job rest induction =>
      obtain ⟨done, member, fails⟩ := failed
      cases member with
      | head later =>
          apply (spoiled_joinOutcome point fails).bind
          intro outcome failing
          apply Spoiled.bind_of_all
          intro outcomes
          exact spoiled_pure ⟨outcome, List.mem_cons_self, failing⟩
      | tail first inside =>
          apply Spoiled.bind_of_all
          intro outcome
          apply (induction (Nat.le_of_succ_le_succ short)
            ⟨done, inside, fails⟩).bind
          rintro results ⟨other, among, failing⟩
          exact spoiled_pure ⟨other, List.mem_cons_of_mem _ among, failing⟩

omit parallel in
theorem alike_refusedOutcome {simulation : Simulation effects String}
    (pairs : List.Forall₂ (WorkerRel comparison) jobs jobs') (started : Nat)
    (refusal : Option String) :
    Alike simulation comparison situation world
      (fun _ => List.Forall₂ OutcomeRel)
      (refusedOutcome point jobs started refusal)
      (refusedOutcome point jobs' started refusal) := by
  cases refusal with
  | none => exact alike_pure .nil
  | some reason =>
      intro before before' states
      have index : (jobs'[started]?.map Worker.index) =
          jobs[started]?.map Worker.index := by
        have same : jobs'.map Worker.index = jobs.map Worker.index := by
          induction pairs with
          | nil => rfl
          | cons head tail induction =>
              simp only [List.map_cons, head.index, induction]
        rw [← List.getElem?_map, ← List.getElem?_map, same]
      refine holds_ret (.refl world) states
        (.cons ⟨rfl, .some ?_⟩ .nil) rfl
      rw [index]
      exact failure_rel states point point _

omit parallel in
/-- Batches on threads are spawned together. -/
theorem lockstep_runThreads
    (pairs : List.Forall₂ (WorkerRel comparison) jobs jobs') :
    AlikeUnless comparison.lockstep comparison situation world SomeFails
      (fun _ => List.Forall₂ OutcomeRel) (runThreads point jobs)
      (runThreads point jobs') := by
  intro before before' states
  refine Lockstep.spawn pairs ?_ ?_
  · intro ends ends' refusal ended
    suffices alike : AlikeUnless comparison.lockstep comparison situation
        world SomeFails (fun _ => List.Forall₂ OutcomeRel)
        (joinOutcomes point jobs ends >>= fun outcomes =>
          refusedOutcome point jobs ends.length refusal >>= fun refused =>
            pure (outcomes ++ refused))
        (joinOutcomes point jobs' ends' >>= fun outcomes =>
          refusedOutcome point jobs' ends'.length refusal >>= fun refused =>
            pure (outcomes ++ refused)) from alike before before' states
    apply (alike_joinOutcomes point pairs ended).bind
    · rintro outcomes ⟨outcome, member, fails⟩
      apply Spoiled.bind_of_all
      intro refused
      exact spoiled_pure ⟨outcome, List.mem_append_left _ member, fails⟩
    · intro larger extends' outcomes outcomes' joined
      apply Alike.unless
      rw [← ended.length_eq]
      apply (alike_refusedOutcome point pairs ends.length refusal).bind
      intro largest further refused refused' refuseds
      exact alike_pure (List.rel_append joined refuseds)
  · rintro ends refusal short ⟨done, member, strict, fails⟩
    suffices spoiled : Spoiled comparison SomeFails
        (joinOutcomes point jobs ends >>= fun outcomes =>
          refusedOutcome point jobs ends.length refusal >>= fun refused =>
            pure (outcomes ++ refused)) from spoiled strict before
    apply (spoiled_joinOutcomes point short ⟨done, member, fails⟩).bind
    rintro outcomes ⟨outcome, among, failing⟩
    apply Spoiled.bind_of_all
    intro refused
    exact spoiled_pure ⟨outcome, List.mem_append_left _ among, failing⟩

/-- Inside of a worker jobs run in its thread, outside on their own. -/
theorem alike_runJobs {simulation : Simulation effects String}
    (similar : worker = true →
      Similar simulation comparison true given given')
    (threads : worker = false → ∀ {situation : Situation} {world : World}
      (point : Point) {jobs jobs' : List Worker},
      List.Forall₂ (WorkerRel comparison) jobs jobs' →
      AlikeUnless simulation comparison situation world SomeFails
        (fun _ => List.Forall₂ OutcomeRel) (runThreads point jobs)
        (runThreads point jobs')) :
    JobsAlike simulation comparison worker given given' := by
  intro situation world point jobs jobs' inside pairs before before' states
  have inWorker : before.inParallelWorker = worker :=
    states.worker.trans inside
  have inWorker' : before'.inParallelWorker = worker :=
    (states.inWorker parallel).trans inWorker
  change simulation.Holds _ _
    ((if before.inParallelWorker then runInline given jobs
      else runThreads point jobs) before)
    ((if before'.inParallelWorker then runInline given' jobs'
      else runThreads point jobs') before')
  rw [inWorker, inWorker']
  cases worker with
  | true =>
      exact alike_runInline parallel (similar rfl) pairs before before' states
  | false => exact threads rfl point pairs before before' states

theorem lockstep_jobs
    (similar : worker = true →
      Similar comparison.lockstep comparison true given given') :
    JobsAlike comparison.lockstep comparison worker given given' := by
  apply alike_runJobs parallel similar
  intro _ situation world point jobs jobs' pairs
  exact lockstep_runThreads point pairs

theorem lockstep_parallel
    (similar : Similar comparison.lockstep comparison worker given given')
    (room : worker = true ∨ comparison.sameLimits = true) :
    ParallelAlike comparison.lockstep comparison worker given given' :=
  parallelAlike_batches parallel (lockstep_supports parallel)
    (lockstep_print parallel)
    (lockstep_jobs parallel fun isWorker => isWorker ▸ similar) similar.clock
    room

/-- With the same fuel, the evaluators are in step. -/
theorem lockstep_evaluator [Formatting] (clock : Nat)
    (room : worker = true ∨ comparison.sameLimits = true) :
    Similar comparison.lockstep comparison worker (evaluator clock)
      (evaluator clock) :=
  similar_evaluator (lockstep_supports parallel) (lockstep_print parallel)
    (fun _ similar => lockstep_parallel parallel similar room) clock

/-- Corresponding workers are in step. -/
theorem lockstep_workerThread [Formatting] {job job' : Worker}
    (related : WorkerRel comparison job job') :
    Lockstep comparison.mirror comparison.mirror.failed WorkerEnd.Rel
      (workerThread job) (workerThread job') := by
  unfold workerThread
  rw [related.clock]
  have similar : Similar comparison.lockstep comparison true
      (evaluator job.clock) (evaluator job.clock) :=
    lockstep_evaluator parallel job.clock (.inl rfl)
  apply Lockstep.bind (holds_executeWorker parallel similar related)
  · rintro result ⟨strict, fails⟩
    refine ⟨strict, ?_⟩
    match result with
    | .ok outcome => exact fails outcome rfl
    | .error (.error _) | .error .panic | .error .outOfFuel => trivial
  · rintro result result' ⟨_, results⟩
    apply Lockstep.ret
    match result, result', results with
    | .ok _, .ok _, outcomes => exact outcomes
    | .error (.error _), .error (.error _), _ => trivial
    | .error .panic, .error .panic, _ => trivial
    | .error .outOfFuel, .error .outOfFuel, _ => trivial

end Jobs

end

section Runs

variable [Formatting] {comparison : Comparison}
  (parallel : comparison.serial = false)

include parallel

theorem setup_mirrors {host host' : Host effects}
    (hosts : host.Mirrors comparison.mirror host') :
    (setup host).Mirrors comparison.mirror (setup host') where
  host := hosts
  job := lockstep_workerThread parallel
  ends := trivial
  panicked := by
    cases strict : comparison.strict with
    | true => exact .inl ⟨strict, trivial⟩
    | false =>
        right
        rintro done ⟨isStrict, _⟩
        rw [strict] at isStrict
        cases isStrict
  replies _ := ⟨.error ""⟩

/-- How related executions end. -/
def Comparison.endings (comparison : Comparison) (left right : Ending) :
    Prop :=
  ResultRel (Value.Rel ⟨Eq, comparison.token⟩) left.1 right.1

theorem lockstep_execution (same : comparison.sameLimits = true)
    {identity identity' : Nat} (tokens : comparison.token identity identity')
    (faithful : ∀ {a b a' b'}, comparison.token a a' →
      comparison.token b b' → (a = b ↔ a' = b'))
    (clock : Nat) (limits : Limits) (program : Program) :
    Lockstep comparison.mirror (Failed comparison) comparison.endings
      (execution clock identity limits program)
      (execution clock identity' limits
        (comparison.rewriting.program program)) := by
  have similar : Similar comparison.lockstep comparison false
      (evaluator clock) (evaluator clock) :=
    lockstep_evaluator parallel clock (.inr same)
  have fits : ∀ node ∈ program.statements,
      node.Fits comparison.serial true := by
    intro node _
    rw [parallel]
    exact node.fits_parallel
  have room : LimitsRel comparison.sameLimits limits limits :=
    ⟨Nat.le_refl _, Nat.le_refl _, Nat.le_refl _, fun _ => rfl,
      fun different => by
        rw [same] at different
        cases different⟩
  have alike : Alike comparison.lockstep comparison .initial
      (World.initial comparison) comparison.values
      (runProgram (evaluator clock) program)
      (runProgram (evaluator clock) (comparison.rewriting.program program)) :=
    alike_runProgram similar rfl (lockstep_supports parallel)
      (lockstep_print parallel)
      (lockstep_parallel parallel similar (.inr same)) rfl program fits
      (initialEnvironment_rel comparison)
  apply Lockstep.mono (alike _ _
    (states_initial comparison program tokens faithful room))
  rintro ⟨result, after⟩ ⟨result', after'⟩
    ⟨larger, extends', states, results, shown⟩
  have same' := states.matching_eq parallel
  unfold Comparison.values at results
  rwa [same'] at results

/-- With the same choices, the runs of a program and of its rewriting stay in
step. -/
theorem runOf_mirrors (same : comparison.sameLimits = true)
    {host host' : Host effects} (hosts : host.Mirrors comparison.mirror host')
    {identity identity' : Nat} (tokens : comparison.token identity identity')
    (faithful : ∀ {a b a' b'}, comparison.token a a' →
      comparison.token b b' → (a = b ↔ a' = b'))
    (clock : Nat) (limits : Limits) (program : Program)
    (choices : List Nat) :
    MachineRel comparison.mirror (Failed comparison) comparison.endings
      (runOf host clock identity limits program choices)
      (runOf host' clock identity' limits
        (comparison.rewriting.program program) choices) := by
  apply Machine.run_mirrors (setup_mirrors parallel hosts)
  · cases strict : comparison.strict with
    | true => exact .inl strict
    | false =>
        right
        rintro ending ⟨isStrict, _⟩
        rw [strict] at isStrict
        cases isStrict
  · exact .inr ⟨⟨rfl, .nil⟩, lockstep_execution parallel same tokens faithful
      clock limits program⟩

end Runs

end NetLang
