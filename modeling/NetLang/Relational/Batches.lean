import NetLang.Library.Chunks
import NetLang.Relational.Statements

/-!
# Batches of related workers

Parallel statements that stay parallel: their workers start in related
states, and what is delivered of their outcomes is alike.  A strict
comparison gives up on a batch as soon as one of its outcomes is an error.
-/

namespace NetLang

open Interp

variable {α β γ δ : Type} {simulation : Simulation effects String}
  {comparison : Comparison} {situation : Situation} {world : World}

section Unless

/-- An ending that is an error, or a value on the way to one. -/
def Broken (comparison : Comparison) (fails : α → Prop)
    (ending : Result α × Interpreter) : Prop :=
  comparison.strict = true ∧ ∀ value, ending.1 = .ok value → fails value

theorem Broken.error {fails : α → Prop} {reason : Stop} {final : Interpreter}
    (strict : comparison.strict = true) :
    Broken comparison fails (.error reason, final) :=
  ⟨strict, fun _ same => by cases same⟩

theorem Broken.ok {fails : α → Prop} {value : α} {final : Interpreter}
    (strict : comparison.strict = true) (isBad : fails value) :
    Broken comparison fails (.ok value, final) := by
  refine ⟨strict, fun other same => ?_⟩
  cases same
  exact isBad

/-- A computation that leads to an error from every state. -/
def Spoiled (comparison : Comparison) (fails : α → Prop) (comp : Interp α) :
    Prop :=
  comparison.strict = true →
    ∀ state, (comp state).Doomed (Broken comparison fails)

theorem Spoiled.bind {fails : α → Prop} {worse : β → Prop} {comp : Interp α}
    {f : α → Interp β} (spoiled : Spoiled comparison fails comp)
    (next : ∀ a, fails a → Spoiled comparison worse (f a)) :
    Spoiled comparison worse (comp >>= f) := by
  intro strict state
  apply Comp.Doomed.bind (spoiled strict state)
  rintro ⟨result, after⟩ ⟨_, broken⟩
  cases result with
  | ok a => exact next a (broken a rfl) strict after
  | error reason => exact Broken.error strict

theorem Spoiled.bind_of_all {worse : β → Prop} {comp : Interp α}
    {f : α → Interp β} (next : ∀ a, Spoiled comparison worse (f a)) :
    Spoiled comparison worse (comp >>= f) := by
  intro strict state
  apply Comp.Doomed.bind_of_all
  rintro ⟨result, after⟩
  cases result with
  | ok a => exact next a strict after
  | error reason => exact Broken.error strict

theorem spoiled_pure {fails : α → Prop} {value : α} (isBad : fails value) :
    Spoiled comparison fails (pure value) :=
  fun strict _ => Broken.ok strict isBad

section

variable (simulation : Simulation effects String) (comparison : Comparison)

/-- Both computations end alike, unless the left one fails. -/
def AlikeUnless (situation : Situation) (world : World) (fails : α → Prop)
    (post : World → α → β → Prop) (left : Interp α) (right : Interp β) :
    Prop :=
  ∀ before before' : Interpreter,
    States comparison situation world before before' →
    simulation.Holds (Broken comparison fails)
      (Ended comparison situation world post before) (left before)
      (right before')

end

variable {fails : α → Prop} {worse : γ → Prop} {post : World → α → β → Prop}
  {after : World → γ → δ → Prop} {left : Interp α} {right : Interp β}
  {f : α → Interp γ} {g : β → Interp δ}

theorem Alike.unless
    (alike : Alike simulation comparison situation world post left right) :
    AlikeUnless simulation comparison situation world fails post left
      right := by
  intro before before' states
  apply Simulation.weaken (alike _ _ states) _ fun _ _ held => held
  rintro ⟨result, final⟩ ⟨strict, reason, rfl⟩
  exact .error strict

theorem AlikeUnless.alike (alike : AlikeUnless simulation comparison situation
      world (fun _ => False) post left right) :
    Alike simulation comparison situation world post left right := by
  intro before before' states
  apply Simulation.weaken (alike _ _ states) _ fun _ _ held => held
  rintro ⟨result, final⟩ ⟨strict, broken⟩
  cases result with
  | ok value => exact (broken value rfl).elim
  | error reason => exact ⟨strict, reason, rfl⟩

theorem AlikeUnless.bind
    (alike : AlikeUnless simulation comparison situation world fails post left
      right)
    (spoils : ∀ a, fails a → Spoiled comparison worse (f a))
    (next : ∀ larger, world.Extends larger → ∀ a b, post larger a b →
      AlikeUnless simulation comparison situation larger worse after (f a)
        (g b)) :
    AlikeUnless simulation comparison situation world worse after
      (left >>= f) (right >>= g) := by
  intro before before' states
  apply simulation.bind (alike _ _ states)
  · rintro ⟨result, final⟩ ⟨strict, broken⟩
    cases result with
    | ok a => exact spoils a (broken a rfl) strict final
    | error reason => exact Broken.error strict
  · rintro lines ⟨result, middle⟩ lines' ⟨result', middle'⟩
      ⟨larger, extends', middles, results, shown⟩
    cases result with
    | error reason =>
        cases result' with
        | ok value => exact results.elim
        | error reason' =>
            apply simulation.ret
            exact ⟨larger, extends', middles, results, by simpa using shown⟩
    | ok a =>
        cases result' with
        | error reason => exact results.elim
        | ok b =>
            apply Simulation.mono (next larger extends' a b results _ _ middles)
            rintro x y ⟨largest, further, finals, outcomes, rest⟩
            exact ⟨largest, extends'.trans further, finals, outcomes,
              shown.trans rest⟩

end Unless

section Delivery

/-- Errors with the same message and call stack. -/
def ErrorRel (left right : RuntimeError) : Prop :=
  right.kind = left.kind ∧ right.callStack = left.callStack

structure OutcomeRel (left right : Outcome) : Prop where
  output : right.output = left.output
  error : Option.Rel ErrorRel left.error? right.error?

/-- An outcome that makes its batch fail. -/
def Outcome.Fails (outcome : Outcome) : Prop :=
  outcome.error?.isSome = true

def SomeFails (outcomes : List Outcome) : Prop :=
  ∃ outcome ∈ outcomes, outcome.Fails

/-- An error that was found. -/
def Found (first : Option RuntimeError) : Prop :=
  first.isSome = true

theorem optionRel_or {α β : Type} {post : α → β → Prop} {a c : Option α}
    {b d : Option β} (first : Option.Rel post a b)
    (second : Option.Rel post c d) :
    Option.Rel post (a.or c) (b.or d) := by
  cases first with
  | none => simpa using second
  | some holds => exact .some holds

theorem found_or {first second : Option RuntimeError} :
    Found (first.or second) ↔ Found first ∨ Found second := by
  unfold Found
  cases first <;> simp

theorem spoiled_deliver (point : Point) (outcomes : List Outcome)
    {first : Option RuntimeError} (failed : Found first ∨ SomeFails outcomes) :
    Spoiled comparison Found (deliver point outcomes first) := by
  induction outcomes generalizing first with
  | nil =>
      obtain found | ⟨outcome, member, _⟩ := failed
      · exact spoiled_pure found
      · cases member
  | cons outcome rest induction =>
      apply Spoiled.bind_of_all
      intro lost
      apply induction
      obtain found | ⟨other, member, fails⟩ := failed
      · exact .inl (found_or.mpr (.inl (found_or.mpr (.inl found))))
      · rcases List.mem_cons.mp member with rfl | later
        · exact .inl (found_or.mpr (.inr fails))
        · exact .inr ⟨other, later, fails⟩

theorem spoiled_finishBatch {first : Option RuntimeError} (found : Found first) :
    Spoiled comparison (fun _ => False) (finishBatch first) := by
  cases first with
  | none => cases found
  | some error => exact fun strict _ => Broken.error strict

variable {worker : Bool}
  (prints : PrintsAlike simulation comparison worker)
  (inside : situation.worker = worker)

include prints inside

theorem alike_deliverLines (point : Point) (lines : List String) :
    AlikeUnless simulation comparison situation world Found
      (fun _ => Option.Rel ErrorRel) (deliverLines point lines)
      (deliverLines point lines) := by
  induction lines generalizing world with
  | nil =>
      have nothing : Alike simulation comparison situation world
        (fun _ => Option.Rel ErrorRel) (pure none) (pure none) :=
          alike_pure .none
      exact nothing.unless
  | cons line rest induction =>
      intro before before' states
      simp only [deliverLines]
      apply simulation.bind (prints point line inside _ _ states)
      · rintro ⟨result, final⟩ ⟨strict, reason, same⟩
        cases (same : result = _)
        cases reason with
        | error error => exact Broken.ok strict rfl
        | panic => exact Broken.error strict
        | outOfFuel => exact Broken.error strict
      · rintro lines ⟨result, middle⟩ lines' ⟨result', middle'⟩
          ⟨larger, extends', middles, results, shown⟩
        have moved : Shown comparison situation.worker before middle
            (lines ++ []) (lines' ++ []) := by simpa using shown
        cases result with
        | ok done =>
            cases result' with
            | error reason => exact results.elim
            | ok done' =>
                apply Simulation.mono (induction _ _ middles)
                rintro x y ⟨largest, further, finals, outcomes, more⟩
                exact ⟨largest, extends'.trans further, finals, outcomes,
                  shown.trans more⟩
        | error reason =>
            cases result' with
            | ok done' => exact results.elim
            | error reason' =>
                match reason, reason', results with
                | .error _, .error _, same =>
                    exact simulation.ret
                      ⟨larger, extends', middles, .some same, moved⟩
                | .panic, .panic, _ | .outOfFuel, .outOfFuel, _ =>
                    exact simulation.ret
                      ⟨larger, extends', middles, trivial, moved⟩

theorem alike_deliver (point : Point) {outcomes outcomes' : List Outcome}
    (pairs : List.Forall₂ OutcomeRel outcomes outcomes')
    {first first' : Option RuntimeError}
    (related : Option.Rel ErrorRel first first') :
    AlikeUnless simulation comparison situation world Found
      (fun _ => Option.Rel ErrorRel) (deliver point outcomes first)
      (deliver point outcomes' first') := by
  induction pairs generalizing world first first' with
  | nil =>
      have nothing : Alike simulation comparison situation world
        (fun _ => Option.Rel ErrorRel) (pure first) (pure first') :=
          alike_pure related
      exact nothing.unless
  | @cons outcome outcome' rest rest' head tail induction =>
      simp only [deliver]
      rw [head.output]
      apply (alike_deliverLines prints inside point outcome.output).bind
      · intro lost found
        exact spoiled_deliver point rest
          (.inl (found_or.mpr (.inl (found_or.mpr (.inr found)))))
      · intro larger extends' lost lost' losts
        exact induction (optionRel_or (optionRel_or related losts) head.error)

end Delivery

theorem alike_finishBatch {first first' : Option RuntimeError}
    (related : Option.Rel ErrorRel first first') :
    Alike simulation comparison situation world (fun _ _ _ => True)
      (finishBatch first) (finishBatch first') := by
  cases related with
  | none => exact alike_pure trivial
  | some same => exact alike_stop same

/-- Workers that start in related states, for the same iteration. -/
structure WorkerRel (comparison : Comparison) (left right : Worker) :
    Prop where
  clock : right.clock = left.clock
  point : right.point = left.point
  variableName : right.variableName = left.variableName
  body : right.body = comparison.rewriting.stmt left.body
  index : right.index = left.index
  start : ∃ world, EnvRel world left.snapshot.env right.snapshot.env ∧
    Value.Rel (comparison.matching world) left.value right.value ∧
    States comparison ⟨0, true, true⟩ world left.start right.start

section Workers

variable (parallel : comparison.serial = false)

include parallel

theorem alike_fork (supports : Supports simulation comparison)
    (point : Point) :
    Alike simulation comparison situation world (fun _ => Eq)
      (fork point) (fork point) := by
  unfold fork
  have forked : Alike simulation comparison situation world
      (fun _ _ _ => True) (call point .fork) (call point .fork) :=
    alike_call supports .fork .fork rfl trivial fun _ _ _ => trivial
  apply forked.bind
  intro larger extends' _ _ _ before before' states
  have runtime := states.runtime
  simp only [RuntimeRel, parallel, Bool.false_eq_true, if_false] at runtime
  obtain ⟨hosts, forks, buffers⟩ := runtime
  refine holds_ret (.refl larger) { states with runtime := ?_ } ?_ rfl
  · simp only [RuntimeRel, parallel, Bool.false_eq_true, if_false]
    exact ⟨hosts, congrArg (· + 1) forks, buffers⟩
  · exact (congrArg₂ List.cons forks hosts).symm

/-- A batch of related workers is prepared for related values. -/
theorem alike_prepare (supports : Supports simulation comparison)
    (point : Point) {base : World}
    {job job' : Nat → Value → HostId → Worker}
    (jobs : ∀ i host {value value'},
      Value.Rel (comparison.matching base) value value' →
      WorkerRel comparison (job i value host) (job' i value' host))
    (i : Nat) {values values' : List Value}
    (related : List.Forall₂ (Value.Rel (comparison.matching base)) values
      values') :
    Alike simulation comparison situation world
      (fun _ => List.Forall₂ (WorkerRel comparison))
      (prepare point job i values) (prepare point job' i values') := by
  induction related generalizing i world with
  | nil => exact alike_pure .nil
  | cons head tail induction =>
      unfold prepare
      apply (alike_tick supports).bind
      intro second toSecond _ _ _
      apply (alike_fork parallel supports point).bind
      rintro third toThird host _ rfl
      apply (induction (i + 1)).bind
      intro fourth toFourth rest rest' pairs
      exact alike_pure (.cons (jobs i host head) pairs)

end Workers

/-- Running related jobs has related outcomes. -/
def JobsAlike (simulation : Simulation effects String)
    (comparison : Comparison) (worker : Bool) (given given' : Evaluator) :
    Prop :=
  ∀ {situation : Situation} {world : World} (point : Point)
    {jobs jobs' : List Worker}, situation.worker = worker →
    List.Forall₂ (WorkerRel comparison) jobs jobs' →
    AlikeUnless simulation comparison situation world SomeFails
      (fun _ => List.Forall₂ OutcomeRel) (runJobs given point jobs)
      (runJobs given' point jobs')

section Iterations

variable {worker : Bool} {given given' : Evaluator}
  {env env' : Environment}
  (parallel : comparison.serial = false)
  (supports : Supports simulation comparison)
  (prints : PrintsAlike simulation comparison worker)
  (runs : JobsAlike simulation comparison worker given given')
  (inside : situation.worker = worker)

include parallel supports prints runs inside

theorem alike_batches (point : Point) {base : World}
    {job job' : Nat → Value → HostId → Worker}
    (jobs : ∀ i host {value value'},
      Value.Rel (comparison.matching base) value value' →
      WorkerRel comparison (job i value host) (job' i value' host))
    (width batch : Nat) {lists lists' : List (List Value)}
    (related : List.Forall₂
      (List.Forall₂ (Value.Rel (comparison.matching base))) lists lists') :
    Alike simulation comparison situation world (fun _ _ _ => True)
      (batches given point job width batch lists)
      (batches given' point job' width batch lists') := by
  induction related generalizing world batch with
  | nil => exact alike_pure trivial
  | @cons values values' rest rest' head tail induction =>
      simp only [batches]
      apply (alike_prepare parallel supports point jobs (batch * width)
        head).bind
      intro second toSecond made made' pairs
      apply AlikeUnless.alike
      apply (runs point inside pairs).bind
      · intro outcomes fails
        apply (spoiled_deliver point outcomes (.inr fails)).bind
        intro first found
        apply (spoiled_finishBatch found).bind
        exact fun _ => False.elim
      · intro third toThird outcomes outcomes' results
        apply (alike_deliver prints inside point results .none).bind
        · intro first found
          apply (spoiled_finishBatch found).bind
          exact fun _ => False.elim
        · intro fourth toFourth first first' firsts
          apply Alike.unless
          apply (alike_finishBatch firsts).bind
          intro fifth toFifth _ _ _
          exact induction (batch + 1)

omit supports prints runs inside in
/-- Both sides take the same number of iterations at a time. -/
theorem States.width_eq {before before' : Interpreter}
    (states : States comparison situation world before before')
    (same : situation.worker = true ∨ comparison.sameLimits = true) :
    before'.width = before.width := by
  unfold Interpreter.width
  rw [states.inWorker parallel, states.worker]
  rcases same with inWorker | equal
  · simp [inWorker]
  · rw [states.limits.equal equal]

omit supports prints runs inside in
/-- Workers of corresponding iterations start in related states. -/
theorem States.workerRel {before before' : Interpreter}
    (states : States comparison situation world before before')
    (clocks : given'.clock = given.clock) (point : Point)
    (variableName : String) (body : Stmt)
    (environments : EnvRel world env env') (i : Nat) (host host' : HostId)
    (hosts : host' = host) {value value' : Value}
    (related : Value.Rel (comparison.matching world) value value') :
    WorkerRel comparison
      ⟨given.clock, point, variableName, body, before.snapshotAt env,
        before.limits, i, value, host⟩
      ⟨given'.clock, point, variableName, comparison.rewriting.stmt body,
        before'.snapshotAt env', before'.limits, i, value', host'⟩ := by
  refine ⟨clocks, rfl, rfl, rfl, rfl, world, environments, related, ?_⟩
  exact { states with
    depth := rfl
    depth' := rfl
    returnType := fun _ => comparison.keep_none.symm
    runtime := by
      simp only [RuntimeRel, parallel, Bool.false_eq_true, if_false]
      exact ⟨hosts, rfl, .some ⟨rfl, rfl, states.limits.output,
        fun equal => by rw [states.limits.equal equal]⟩⟩
    worker := rfl
    buffer := rfl
    captured := by
      simp only [parallel, Bool.false_eq_true, if_false]
      exact (states.lengths parallel).1
    inWorker := fun _ => rfl
    alone := fun serial => by
      rw [parallel] at serial
      cases serial }

theorem alike_iterations (point : Point) (variableName : String)
    (body : Stmt) {values values' : List Value}
    (clocks : given'.clock = given.clock)
    (same : situation.worker = true ∨ comparison.sameLimits = true)
    (environments : EnvRel world env env')
    (related : Value.RelList (comparison.matching world) values values') :
    Alike simulation comparison situation world (fun _ _ _ => True)
      (iterations given point env variableName body values)
      (iterations given' point env' variableName
        (comparison.rewriting.stmt body) values') := by
  intro before before' states
  have widths := states.width_eq parallel same
  have started : ∀ i host {value value' : Value},
      Value.Rel (comparison.matching world) value value' →
      WorkerRel comparison
        ⟨given.clock, point, variableName, body, before.snapshotAt env,
          before.limits, i, value, host⟩
        ⟨given'.clock, point, variableName, comparison.rewriting.stmt body,
          before'.snapshotAt env', before'.limits, i, value', host⟩ :=
    fun i host _ _ values => states.workerRel parallel clocks point
      variableName body environments i host host rfl values
  have chunked := chunks_forall₂ before.width
    (Value.relList_iff.mp related)
  have batched : Alike simulation comparison situation world
      (fun _ _ _ => True) _ _ :=
    alike_batches parallel supports prints runs inside point started
      before.width 0 chunked
  change simulation.Holds _ _
    (batches given point _ before.width 0 (chunks before.width values) before)
    (batches given' point _ before'.width 0 (chunks before'.width values')
      before')
  rw [widths]
  exact batched before before' states

omit inside in
/-- With the same width on both sides, parallel statements are alike if the
jobs of their batches are. -/
theorem parallelAlike_batches (clocks : given'.clock = given.clock)
    (same : worker = true ∨ comparison.sameLimits = true) :
    ParallelAlike simulation comparison worker given given' := by
  intro situation world env env' point variableName body values values'
    inside top fits environments related nonempty
  have iterated := alike_iterations parallel supports prints runs inside point
    variableName body clocks
    (same.imp_left fun isWorker => inside.trans isWorker) environments related
  unfold Comparison.counterpart
  simp only [parallel, Bool.false_eq_true, if_false]
  rw [← Interp.bind_pure (reported _ (iterations given _ _ _ _ _))]
  apply (alike_reported iterated).bind
  intro larger extends' _ _ _
  exact alike_pure rfl

end Iterations

end NetLang
