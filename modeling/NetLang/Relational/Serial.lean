import NetLang.Relational.Widths
import NetLang.Theory.Framing

/-!
# Parallel statements as serial loops

Each worker starts from the state of its parallel statement.  The iterations
of a serial loop follow one another in one state, but none of them changes
anything that a later one sees: a worker cannot, and the body of the loop does
what the worker does.
-/

namespace NetLang

open Interp

variable [Formatting] {α : Type} {comparison : Comparison}
  {situation inner : Situation} {world larger : World}
  {before before' after after' : Interpreter} {units : Nat}
  {lines : List String} {worker : Bool}

section Frames

omit [Formatting] in
theorem AllLeftAlone.length_eq {manners : Manners effects String}
    {threads : List (Comp effects WorkerEnd)} {ends : List WorkerEnd}
    {spent : Nat} (all : AllLeftAlone manners threads ends spent) :
    ends.length = threads.length := by
  induction all with
  | nil => rfl
  | cons _ _ induction => exact congrArg (· + 1) induction

/-- What is left alone has the frame of every computation. -/
theorem Returns.frame {comp : Interp α} {value : α}
    (returns : Returns (manners worker) comp before units lines value after)
    (frames : Frames True comp) (ready : Ready True before) :
    Frame before after := by
  have held := LeftAlone.of_safe returns (frames before ready)
    (fun _ _ _ => trivial) ?_
  · exact held.rel
  · intro jobs ends spent ended
    cases worker with
    | true => exact False.elim ended
    | false =>
        have sizes : ends.length = jobs.length := by
          rw [AllLeftAlone.length_eq ended, List.length_map]
        refine ⟨sizes.le, ?_, by simp [sizes]⟩
        rw [sizes, List.take_length, List.forall₂_iff_get]
        exact ⟨sizes.symm, fun _ _ _ => trivial⟩

end Frames

section Prints

omit [Formatting] in
theorem output_push {buffer grown : WorkerBuffer} {text : String}
    (pushed : buffer.push text = some grown) :
    grown.output = buffer.output ++ [text] := by
  unfold WorkerBuffer.push at pushed
  split at pushed
  · cases pushed
  · split at pushed <;> cases pushed
    rfl

/-- What a worker buffers is printed by the serial execution. -/
theorem following_printSerial (serial : comparison.serial = true)
    (strict : comparison.strict = true) :
    PrintsAlike (following true false False) comparison true := by
  intro situation world point text inside before before' states
  have direct : before'.runtime.buffer = none := by
    have runtime := states.runtime
    unfold RuntimeRel at runtime
    rwa [if_pos serial] at runtime
  have buffered := states.buffer.trans inside
  obtain ⟨buffer, found⟩ := Option.isSome_iff_exists.mp buffered
  unfold Interp.print
  simp only [found, direct]
  cases pushed : buffer.push text with
  | none => exact holds_failed strict
  | some grown =>
      refine ⟨False.elim, ?_⟩
      intro units lines ending undisturbed good
      cases undisturbed
      refine ⟨[text] ++ [], (.ok (), before'), .call rfl (.ret _), world,
        .refl world, ?_, trivial, ?_⟩
      · refine { states with
          runtime := ?_
          buffer := ?_ }
        · unfold RuntimeRel
          rwa [if_pos serial]
        · rw [← states.buffer, found]
          rfl
      · simp [Shown, serial, inside, Interpreter.output, found,
          output_push pushed]

end Prints

section Restore

omit [Formatting] in
/-- A binding that is related to two others is related to one. -/
theorem BindingRel.unique (faithful : (comparison.matching world).Faithful)
    {left right other : Binding}
    (first : BindingRel comparison world left right)
    (second : BindingRel comparison world left other) : other = right := by
  obtain ⟨annotated, value, mutable⟩ := right
  obtain ⟨annotated', value', mutable'⟩ := other
  have same : value' = value := by
    obtain ⟨missing, missing'⟩ | ⟨held, held', found, found', related⟩ :=
      optionRel_cases first.value
    · have empty := second.value
      rw [missing] at empty
      cases empty
      exact missing'.symm
    · have full := second.value
      rw [found] at full
      cases full with
      | some other =>
          exact (congrArg some (Value.Rel.unique faithful related
            other)).trans found'.symm
  cases first.mutable.trans second.mutable.symm
  cases first.annotated.trans second.annotated.symm
  rw [same]

omit [Formatting] in
/-- Once the worker is gone, its parent is still related to the state that the
serial loop has reached. -/
theorem States.restore (serial : comparison.serial = true)
    (states : States comparison situation world before before')
    (later : States comparison inner larger after after')
    (extends' : world.Extends larger)
    (kept : after.bindings.take before.bindings.length = before.bindings)
    (frame : Frame before' after') :
    States comparison situation world before after' where
  types := frame.types ▸ states.types
  limits := frame.limits ▸ states.limits
  callStack := frame.callStack.trans states.callStack
  depth := states.depth
  depth' := frame.expressionDepth.trans states.depth'
  returnType returns := frame.returnType.trans (states.returnType returns)
  runtime := by
    have runtime := later.runtime
    unfold RuntimeRel at runtime ⊢
    rwa [if_pos serial] at runtime ⊢
  worker := states.worker
  buffer := states.buffer
  bindings {a a'} slot := by
    obtain ⟨b, b', found, found', related⟩ := states.bindings slot
    obtain ⟨c, c', now, now', again⟩ := later.bindings (extends'.slot slot)
    have bound := (List.getElem?_eq_some_iff.mp found).1
    have same : after.bindings[a]? = before.bindings[a]? := by
      conv_rhs => rw [← kept]
      rw [List.getElem?_take_of_lt bound]
    rw [same, found] at now
    cases now
    have unchanged := BindingRel.unique later.faithful
      (related.mono extends') again
    exact ⟨b, b', found, unchanged ▸ now', related⟩
  functions {a a'} handle := by
    have bound := (states.defined serial handle).2
    obtain ⟨more, grown⟩ := frame.functions
    rw [← grown, List.getElem?_append_left bound]
    exact states.functions handle
  slots := states.slots
  faithful := states.faithful
  lengths parallel := by
    rw [serial] at parallel
    cases parallel
  slot parallel := by
    rw [serial] at parallel
    cases parallel
  handle parallel := by
    rw [serial] at parallel
    cases parallel
  defined _ _ _ handle := by
    obtain ⟨bound, bound'⟩ := states.defined serial handle
    exact ⟨bound, bound'.trans_le frame.functions.length_le⟩
  captured := frame.capturedBindings.trans states.captured
  inWorker parallel := by
    rw [serial] at parallel
    cases parallel
  alone _ := frame.snapshot.trans (states.alone serial)

omit [Formatting] in
/-- At its start a worker is related to the state of the serial loop. -/
theorem States.start (serial : comparison.serial = true)
    (states : States comparison situation world before before')
    (top : situation.depth = 0) {job : Worker} {env : Environment}
    (snapshot : job.snapshot = before.snapshotAt env)
    (limits : job.limits = before.limits) :
    States comparison ⟨0, false, true⟩ world job.start before' := by
  have different : comparison.serial ≠ false := by simp [serial]
  unfold Worker.start
  rw [snapshot, limits]
  exact { states with
    depth := rfl
    depth' := states.depth'.trans top
    returnType := fun impossible => by cases impossible
    runtime := by
      have runtime := states.runtime
      unfold RuntimeRel at runtime ⊢
      rwa [if_pos serial] at runtime ⊢
    worker := rfl
    buffer := rfl
    captured := by
      have captured := states.captured
      rwa [if_pos serial] at captured ⊢
    inWorker := fun parallel => absurd parallel different }

omit [Formatting] in
/-- The serial execution is that of no worker. -/
theorem States.ready (serial : comparison.serial = true)
    (states : States comparison situation world before before') :
    Ready True before' := by
  refine ⟨?_, ?_, fun _ => trivial⟩
  · intro snapshot known
    rw [states.alone serial] at known
    cases known
  · rw [states.captured, if_pos serial]
    exact Nat.zero_le _

omit [Formatting] in
/-- What a parallel statement leaves behind, and what the loop has printed. -/
theorem States.emitted (serial : comparison.serial = true)
    {outputs : List String} {count : Nat}
    (states : States comparison situation world before after')
    (inside : situation.worker = worker)
    (emitted : Emitted worker (before.advance count) after lines outputs) :
    States comparison situation world after after' ∧
      Shown comparison situation.worker before after lines outputs := by
  have runtime : ∀ left : RuntimeState,
      RuntimeRel comparison left after'.runtime := by
    intro left
    have runtime := states.runtime
    unfold RuntimeRel at runtime ⊢
    rwa [if_pos serial] at runtime ⊢
  cases worker with
  | false =>
      obtain ⟨rfl, rfl⟩ := emitted
      refine ⟨{ states with runtime := runtime _ }, ?_⟩
      simp [Shown, inside]
  | true =>
      obtain ⟨rfl, buffer, rfl, output⟩ := emitted
      refine ⟨{ states with
        runtime := runtime _
        buffer := inside.symm }, ?_⟩
      unfold Shown
      rw [if_pos (by simp [serial, inside])]
      exact ⟨rfl, output⟩

end Restore

section Iterations

variable (serial : comparison.serial = true) {clock : Nat}
  (similar : Similar (following true false False) comparison true
    (evaluator clock) (evaluator clock))
  {env env' : Environment} {point : Point} {variableName : String}
  {body : Stmt}

omit [Formatting] in
theorem returns_finishIteration {manners : Manners effects String}
    {flow : Flow} (returns : Returns manners (finishIteration point flow)
      before units lines () after) :
    units = 0 ∧ lines = [] ∧ after = before ∧
      (flow = .normal ∨ flow = .continue) := by
  cases flow with
  | normal =>
      obtain ⟨rfl, rfl, _, rfl⟩ := returns_pure.mp returns
      exact ⟨rfl, rfl, rfl, .inl rfl⟩
  | «continue» =>
      obtain ⟨rfl, rfl, _, rfl⟩ := returns_pure.mp returns
      exact ⟨rfl, rfl, rfl, .inr rfl⟩
  | «break» => cases returns
  | «return» value => cases returns

omit [Formatting] in
/-- What a worker that succeeds has done. -/
theorem returns_executeWorker {self : Evaluator} {job : Worker}
    {output : List String}
    (alone : LeftAlone workerManners (executeWorker self job) units []
      (.ok ⟨output, .ok ()⟩)) :
    ∃ flow last after, Returns workerManners
        (allocate ⟨none, some job.value, true⟩ >>= fun id =>
          self.body (1 :: job.point) job.body
            ([(job.variableName, id)] :: job.snapshot.env))
        job.start units [] (flow, last) after ∧
      (flow = .normal ∨ flow = .continue) ∧ after.output = output := by
  obtain ⟨first, front, ⟨result, after⟩, second, back, rfl, same, ran, ended⟩ :=
    LeftAlone.of_bind alone
  obtain ⟨rfl, rfl⟩ := List.nil_eq_append_iff.mp same
  cases result with
  | error reason => cases reason <;> cases ended
  | ok done =>
      cases ended
      have returns : Returns workerManners
          ((allocate ⟨none, some job.value, true⟩ >>= fun id => self.body
            (1 :: job.point) job.body
            ([(job.variableName, id)] :: job.snapshot.env)) >>=
              fun done => finishIteration job.point done.1)
          job.start first [] () after := by
        rw [Interp.bind_assoc]
        exact ran
      obtain ⟨units, front, ⟨flow, last⟩, middle, _, _, rfl, same, body,
        finished⟩ := returns_bind.mp returns
      obtain ⟨rfl, rfl⟩ := List.nil_eq_append_iff.mp same
      obtain ⟨rfl, _, rfl, goes⟩ := returns_finishIteration finished
      exact ⟨flow, last, after, body, goes, rfl⟩

include serial similar

/-- An iteration of the serial loop does what the worker does. -/
theorem returns_iteration
    (states : States comparison situation world before before')
    (top : situation.depth = 0) (environments : EnvRel world env env')
    (fits : body.Fits comparison.serial false) {value value' : Value}
    (related : Value.Rel (comparison.matching world) value value')
    {index : Nat} {host : HostId} {output : List String}
    (alone : LeftAlone workerManners (executeWorker (evaluator clock)
      ⟨clock, point, variableName, body, before.snapshotAt env, before.limits,
        index, value, host⟩) units [] (.ok ⟨output, .ok ()⟩)) :
    ∃ flow last after', Returns mainManners
        (allocate ⟨none, some value', true⟩ >>= fun id =>
          (evaluator clock).body (1 :: point) (comparison.rewriting.stmt body)
            ([(variableName, id)] :: env'))
        before' units output (flow, last) after' ∧
      (flow = .normal ∨ flow = .continue) ∧
      States comparison situation world before after' := by
  obtain ⟨flow, last, after, ran, goes, buffered⟩ :=
    returns_executeWorker alone
  generalize made : Worker.start ⟨clock, point, variableName, body,
    before.snapshotAt env, before.limits, index, value, host⟩ = start at ran
  have started : States comparison ⟨0, false, true⟩ world start before' := by
    rw [← made]
    exact states.start serial top rfl rfl
  have held : BindingRel comparison world ⟨none, some value, true⟩
      ⟨none, some value', true⟩ :=
    ⟨rfl, comparison.keep_none.symm, .some related⟩
  have alike : Alike (following true false False) comparison ⟨0, false, true⟩
      world comparison.flows
      (allocate ⟨none, some value, true⟩ >>= fun id => (evaluator clock).body
        (1 :: point) body ([(variableName, id)] :: env))
      (allocate ⟨none, some value', true⟩ >>= fun id => (evaluator clock).body
        (1 :: point) (comparison.rewriting.stmt body)
          ([(variableName, id)] :: env')) := by
    apply (alike_allocate held).bind
    intro larger extends' id id' slot
    have scope : ScopeRel larger [(variableName, id)] [(variableName, id')] :=
      .cons ⟨rfl, slot⟩ .nil
    exact similar.body (1 :: point) body rfl rfl fits
      (.cons scope (environments.mono extends'))
  have good : ¬ Failed comparison
      ((.ok (flow, last) : Result (Flow × Environment)), after) := by
    rintro ⟨_, reason, failed⟩
    cases failed
  obtain ⟨_, follow⟩ := alike start before' started
  obtain ⟨lines', ⟨result', after'⟩, again, larger, extends', later, results,
    shown⟩ := follow _ _ _ ran good
  cases result' with
  | error reason => exact results.elim
  | ok result' =>
      obtain ⟨flow', last'⟩ := result'
      obtain ⟨flows, _⟩ := results
      have frames : ∀ (value : Value) (node : Stmt) (env : Environment),
          Frames True (allocate ⟨none, some value, true⟩ >>= fun id =>
            (evaluator clock).body (1 :: point) node
              ([(variableName, id)] :: env)) := by
        intro value node env
        exact (Frames.allocate _).bind fun _ =>
          (evaluator_framed clock).body _ _ _ _ _
      have kept : after.bindings.take before.bindings.length =
          before.bindings := by
        have ready : Ready True start := made ▸ Worker.start_ready _
        have inside : Returns (manners true) _ start units [] (flow, last)
            after := ran
        have frame := inside.frame (frames value body env) ready
        have taken := frame.bindings.take_eq ready.inside
        rw [← made] at taken
        exact taken.trans List.take_length
      have frame : Frame before' after' :=
        Returns.frame again (frames value' _ env') (states.ready serial)
      have restored := states.restore serial later extends' kept frame
      have lines : output = lines' := by
        unfold Shown at shown
        rw [if_pos (by simp [serial])] at shown
        rw [← buffered, shown.2, ← made]
        rfl
      rw [lines]
      refine ⟨flow', last', after', again, ?_, restored⟩
      rcases goes with rfl | rfl
      · cases flow' with
        | normal => exact .inl rfl
        | _ => exact flows.elim
      · cases flow' with
        | «continue» => exact .inr rfl
        | _ => exact flows.elim

/-- The serial loop does what the workers do, one after the other. -/
theorem returns_forLoop
    (states : States comparison situation world before before')
    (top : situation.depth = 0) (environments : EnvRel world env env')
    (fits : body.Fits comparison.serial false) {values values' : List Value}
    (related : List.Forall₂ (Value.Rel (comparison.matching world)) values
      values') {host : HostId} {forks i spent : Nat}
    {outputs : List (List String)}
    (worked : Worked (workersOf (fun index value host => ⟨clock, point,
      variableName, body, before.snapshotAt env, before.limits, index, value,
      host⟩) host forks i values) outputs spent) :
    ∃ after', Returns mainManners (forLoop (evaluator clock) point
        variableName (comparison.rewriting.stmt body) env' values')
        before' (values.length + spent) outputs.flatten .normal after' ∧
      States comparison situation world before after' := by
  induction related generalizing before' forks i outputs spent with
  | nil =>
      cases worked
      exact ⟨before', .ret _, states⟩
  | @cons value value' rest rest' head tail induction =>
      obtain _ | ⟨alone, worked⟩ := worked
      next output outputs units spent =>
      have attempted' : States comparison situation world before
          (attempted before') := { states with }
      obtain ⟨flow, last, middle, first, goes, states'⟩ :=
        returns_iteration serial similar attempted' top environments fits head
          alone
      obtain ⟨after', later, finals⟩ := induction states' worked
      refine ⟨after', ?_, finals⟩
      refine returns_bind.mpr ⟨1, [], (), _, units + (rest.length + spent), _,
        ?_, rfl, returns_tick.mpr ⟨rfl, rfl, rfl⟩, ?_⟩
      · simp only [List.length_cons]
        omega
      · rw [← Interp.bind_assoc]
        refine returns_bind.mpr ⟨units, output, (flow, last), middle, _,
          outputs.flatten, rfl, rfl, first, ?_⟩
        rcases goes with rfl | rfl
        · exact later
        · exact later

theorem following_serial (strict : comparison.strict = true)
    (different : comparison.sameLimits = false) :
    ParallelAlike (following worker false False) comparison worker
      (evaluator clock) (evaluator clock) := by
  intro situation world env env' point variableName body values values'
    inside top fits environments related nonempty before before' states
  refine ⟨False.elim, ?_⟩
  rintro units lines ⟨result, after⟩ undisturbed good
  cases result with
  | error reason => exact absurd ⟨strict, reason, rfl⟩ good
  | ok done =>
      have lists := Value.relList_iff.mp related
      have main : before.inParallelWorker = worker := states.worker.trans inside
      have positive : 0 < before.width := by
        obtain ⟨positive, _⟩ := states.limits.workers different
        unfold Interpreter.width
        split
        · exact Nat.one_pos
        · exact positive
      have buffers : Buffers worker before := states.buffer.trans inside
      have returns : Returns (manners worker) _ before units lines done after :=
        returns_reported.mp undisturbed
      obtain ⟨outputs, spent, worked, rfl, emitted⟩ :=
        worked_iterations positive main buffers returns
      rw [serial, Bool.not_true, Bool.and_false, ← serial] at fits
      obtain ⟨after', looped, finals⟩ :=
        returns_forLoop serial similar states top environments fits lists
          worked
      obtain ⟨moved, shown⟩ := finals.emitted serial inside emitted
      refine ⟨outputs.flatten, (.ok .normal, after'), ?_, world, .refl world,
        moved, rfl, shown⟩
      unfold Comparison.counterpart
      rw [if_pos serial]
      exact looped

end Iterations

section Executions

variable (serial : comparison.serial = true)
  (strict : comparison.strict = true)
  (different : comparison.sameLimits = false)

include serial strict different

/-- Inside of workers. -/
theorem following_serialEvaluator (clock : Nat) :
    Similar (following true false False) comparison true (evaluator clock)
      (evaluator clock) :=
  similar_evaluator (following_supports strict true false False)
    (following_printSerial serial strict)
    (fun _ similar => following_serial serial similar strict different) clock

/-- An execution that succeeds when it is left alone does the same when its
parallel statements are serial loops. -/
theorem following_serialExecution {identity identity' : Nat}
    (tokens : comparison.token identity identity')
    (faithful : ∀ {a b a' b'}, comparison.token a a' →
      comparison.token b b' → (a = b ↔ a' = b'))
    {limits limits' : Limits}
    (room : LimitsRel comparison.sameLimits limits limits') (clock : Nat)
    {program : Program}
    (fits : ∀ node ∈ program.statements, node.Fits comparison.serial true) :
    (following false false False).Holds (Failed comparison)
      (fun left right => right.1 = left.1 ∧ ∃ larger,
        (comparison.matching larger).Faithful ∧
        ResultRel (comparison.values larger) left.2.1 right.2.1)
      (execution clock identity limits program)
      (execution clock identity' limits'
        (comparison.rewriting.program program)) := by
  have supports : Supports (following false false False) comparison :=
    following_supports strict false false False
  have parallels : ∀ clock, ParallelAlike (following false false False)
      comparison false (evaluator clock) (evaluator clock) := by
    intro clock
    exact following_serial serial
      (following_serialEvaluator serial strict different clock) strict
      different
  have similar : Similar (following false false False) comparison false
      (evaluator clock) (evaluator clock) :=
    similar_evaluator supports (following_printMain False)
      (fun clock _ => parallels clock) clock
  have alike : Alike (following false false False) comparison .initial
      (World.initial comparison) comparison.values
      (runProgram (evaluator clock) program)
      (runProgram (evaluator clock) (comparison.rewriting.program program)) :=
    alike_runProgram similar rfl supports (following_printMain False)
      (parallels clock) rfl program fits (initialEnvironment_rel comparison)
  apply Simulation.mono (alike _ _
    (states_initial comparison program tokens faithful room))
  rintro ⟨lines, result, after⟩ ⟨lines', result', after'⟩
    ⟨larger, extends', states, results, shown⟩
  refine ⟨?_, larger, states.faithful, results⟩
  simpa [Shown, Situation.initial] using shown

end Executions

end NetLang
