import NetLang.Interpreter.Execute
import NetLang.Library.Paths

/-!
# Iterations of a parallel statement

Every iteration of a parallel statement runs once, in batches that are
consecutive chunks of the array, and the output of every iteration that ran is
delivered in input order before the first error is returned.
-/

namespace NetLang

open Interp

namespace Interp

variable {α β : Type}

/-- A path of an interpreter's computation. -/
def Path (comp : Interp α) (state : Interpreter)
    (events : List (Event effects)) (result : Result α)
    (after : Interpreter) : Prop :=
  (comp state).Path events (result, after)

theorem path_bind {comp : Interp α} {f : α → Interp β}
    {state after : Interpreter} {events : List (Event effects)}
    {result : Result β} :
    Path (comp >>= f) state events result after ↔
      (∃ front back value middle, events = front ++ back ∧
        comp.Path state front (.ok value) middle ∧
        (f value).Path middle back result after) ∨
      ∃ reason, result = .error reason ∧
        comp.Path state events (.error reason) after := by
  have whole : Path (comp >>= f) state events result after ↔
      ∃ front back outcome, events = front ++ back ∧
        (comp state).Path front outcome ∧ _ :=
    Comp.path_bind
  rw [whole]
  constructor
  · rintro ⟨front, back, ⟨first, middle⟩, rfl, begins, rest⟩
    cases first with
    | ok value => exact .inl ⟨front, back, value, middle, rfl, begins, rest⟩
    | error reason =>
        obtain ⟨rfl, same⟩ := Comp.path_ret.mp rest
        cases same
        exact .inr ⟨reason, rfl, by simpa [Path] using begins⟩
  · rintro (⟨front, back, value, middle, rfl, begins, rest⟩ |
      ⟨reason, rfl, path⟩)
    · exact ⟨front, back, (.ok value, middle), rfl, begins, rest⟩
    · exact ⟨events, [], (.error reason, after), by simp, path, .ret _⟩

@[simp] theorem path_pure {value : α} {state after : Interpreter}
    {events : List (Event effects)} {result : Result α} :
    Path (pure value) state events result after ↔
      events = [] ∧ result = .ok value ∧ after = state := by
  have whole : Path (pure value) state events result after ↔
      events = [] ∧ (result, after) = (.ok value, state) :=
    Comp.path_ret
  rw [whole, Prod.mk.injEq]

theorem path_call {point : Point} {operation : HostCall}
    {state after : Interpreter} {events : List (Event effects)}
    {result : Result operation.Answer}
    (path : (call point operation).Path state events result after) :
    after = state ∧ ∃ reply,
      events = [⟨.call (state.runtime.host, operation), reply⟩] ∧
      ((∃ answer, reply = .ok answer ∧ result = .ok answer) ∨
        ∃ message, reply = .error message ∧
          result = .error (.error (failure point (.host message) state))) := by
  obtain ⟨reply, rest, rfl, later⟩ := Comp.path_act.mp path
  cases reply with
  | ok answer =>
      obtain ⟨rfl, same⟩ := Comp.path_ret.mp later
      cases same
      exact ⟨rfl, _, rfl, .inl ⟨answer, rfl, rfl⟩⟩
  | error message =>
      obtain ⟨rfl, same⟩ := Comp.path_ret.mp later
      cases same
      exact ⟨rfl, _, rfl, .inr ⟨message, rfl, rfl⟩⟩

end Interp

/-- The text that an event prints through a host. -/
def printed? (host : HostId) : Event effects → Option String
  | ⟨.call (caller, .print text), _⟩ =>
      if caller = host then some text else none
  | _ => none

/-- The batch that an event starts. -/
def spawned? : Event effects → Option (List Worker)
  | ⟨.spawn jobs, _⟩ => some jobs
  | _ => none

/-- The threads that an event starts, each with the way it ends. -/
def joinedThreads? : Event effects → List (Worker × WorkerEnd)
  | ⟨.spawn jobs, reply⟩ => jobs.zip reply.1
  | _ => []

def printed (host : HostId) (events : List (Event effects)) : List String :=
  events.filterMap (printed? host)

def spawned (events : List (Event effects)) : List (List Worker) :=
  events.filterMap spawned?

def joinedThreads (events : List (Event effects)) : List (Worker × WorkerEnd) :=
  events.flatMap joinedThreads?

@[simp] theorem printed_append (host : HostId)
    (front back : List (Event effects)) :
    printed host (front ++ back) = printed host front ++ printed host back :=
  List.filterMap_append

@[simp] theorem spawned_append (front back : List (Event effects)) :
    spawned (front ++ back) = spawned front ++ spawned back :=
  List.filterMap_append

@[simp] theorem joinedThreads_append (front back : List (Event effects)) :
    joinedThreads (front ++ back) = joinedThreads front ++ joinedThreads back :=
  List.flatMap_append

theorem joinedThreads_of_calm {events : List (Event effects)}
    (calm : spawned events = []) : joinedThreads events = [] := by
  induction events with
  | nil => rfl
  | cons event events induction =>
      obtain ⟨call, reply⟩ := event
      cases call with
      | spawn jobs => cases calm
      | _ => exact induction calm

section Batches

variable [Formatting]

/-- The thread of a job may end so. -/
def EndOf (job : Worker) (done : WorkerEnd) : Prop :=
  done = .panicked ∨ ∃ events outcome, done = .finished outcome ∧
    (workerThread job).Path events done

/-- The step was granted, the host succeeded, or all threads of the batch were
started and have ended. -/
def Smooth : Event effects → Prop
  | ⟨.tick, granted⟩ => granted = true
  | ⟨.call _, reply⟩ => ∃ answer, reply = .ok answer
  | ⟨.spawn jobs, reply⟩ => List.Forall₂ EndOf jobs reply.1 ∧ reply.2 = none
  | ⟨.observe _, _⟩ => True

/-- What a joined thread hands to its parent: its outcome, or the error of a
panic. -/
def Joins (job : Worker) : WorkerEnd → Outcome → Prop
  | .finished outcome, handed => handed = outcome
  | .panicked, handed => handed.output = [] ∧ ∃ error,
      handed.result = .error error ∧
        error.kind = .iterationPanicked (job.index + 1)
  | .outOfFuel, _ => False

/-- A job and what its own thread has handed to the parent. -/
def Handed (thread : Worker × WorkerEnd) (entry : Worker × Outcome) :
    Prop :=
  entry.1 = thread.1 ∧ Joins thread.1 thread.2 entry.2

/-- The events of jobs that run in the thread of their parent, one after the
other, each once it has got a step and a host. -/
inductive Inlined (self : Evaluator) (host : HostId) :
    List (Event effects) → List (Worker × Outcome) → Prop where
  | nil : Inlined self host [] []
  | cons {part rest : List (Event effects)} {job : Worker}
      {outcome : Outcome} {ran : List (Worker × Outcome)} :
      (executeWorker self job).Path part (.ok outcome) →
      Inlined self host rest ran →
      Inlined self host
        (⟨.tick, true⟩ :: ⟨.call (host, .fork), .ok ()⟩ :: (part ++ rest))
        ((job, outcome) :: ran)

/-- Every job has run once: its outcome is that of its own thread, or of its
own part of the events. -/
def RanOnce (self : Evaluator) (state : Interpreter)
    (events : List (Event effects)) (ran : List (Worker × Outcome)) : Prop :=
  if state.inParallelWorker then
    Inlined self state.runtime.host events ran
  else
    List.Forall₂ Handed (joinedThreads events) ran

/-- The errors of the parent's own steps, forks and prints. -/
inductive ParentError : ErrorKind → Prop where
  | stepLimit : ParentError .stepLimit
  | host (message : String) : ParentError (.host message)
  | outputLimit : ParentError .outputLimit

/-- An iteration reports its one-based number. -/
def Numbered (job : Worker) (outcome : Outcome) : Prop :=
  ∀ error, outcome.error? = some error →
    error.kind = .iterationPanicked (job.index + 1) ∨
      ∃ kind, error.kind = .iteration (job.index + 1) kind

omit [Formatting] in
theorem outcome_numbered {self : Evaluator} {job : Worker}
    {events : List (Event effects)} {result : Result Outcome}
    (path : (executeWorker self job).Path events result) {outcome : Outcome}
    (done : result = .ok outcome) : Numbered job outcome := by
  obtain ⟨front, back, ⟨flow, after⟩, _, _, rest⟩ := Comp.path_bind.mp path
  obtain ⟨_, same⟩ := Comp.path_ret.mp rest
  rw [same] at done
  intro error failed
  right
  cases flow with
  | ok value =>
      cases done
      cases failed
  | error reason =>
      cases reason with
      | error inner =>
          cases done
          cases failed
          exact ⟨inner.kind, rfl⟩
      | panic => cases done
      | outOfFuel => cases done

theorem Joins.numbered {job : Worker} {done : WorkerEnd} {outcome : Outcome}
    (joins : Joins job done outcome) (ended : EndOf job done) :
    Numbered job outcome := by
  obtain rfl | ⟨events, outcome', rfl, path⟩ := ended
  · obtain ⟨_, error, failed, kind⟩ := joins
    intro error' found
    rw [Outcome.error?, failed] at found
    cases found
    exact .inl kind
  · cases (joins : outcome = outcome')
    obtain ⟨front, back, result, _, first, rest⟩ := Comp.path_bind.mp path
    obtain ⟨_, same⟩ := Comp.path_ret.mp rest
    cases result with
    | ok outcome' =>
        cases same
        exact outcome_numbered first rfl
    | error reason => cases reason <;> cases same

theorem joined_numbered {threads : List (Worker × WorkerEnd)}
    {ran : List (Worker × Outcome)}
    (ends : ∀ thread ∈ threads, EndOf thread.1 thread.2)
    (joined : List.Forall₂ Handed threads ran) :
    ∀ entry ∈ ran, Numbered entry.1 entry.2 := by
  induction joined with
  | nil => exact fun _ member => absurd member List.not_mem_nil
  | @cons thread entry _ _ first _ induction =>
      intro other member
      rcases List.mem_cons.mp member with rfl | later
      · rw [first.1]
        exact first.2.numbered (ends thread List.mem_cons_self)
      · exact induction (fun thread inside =>
          ends thread (List.mem_cons_of_mem _ inside)) other later

omit [Formatting] in
theorem Inlined.numbered {self : Evaluator} {host : HostId}
    {events : List (Event effects)} {ran : List (Worker × Outcome)}
    (inlined : Inlined self host events ran) :
    ∀ entry ∈ ran, Numbered entry.1 entry.2 := by
  induction inlined with
  | nil => exact fun _ member => absurd member List.not_mem_nil
  | cons path _ induction =>
      intro entry member
      rcases List.mem_cons.mp member with rfl | later
      · exact outcome_numbered path rfl
      · exact induction entry later

omit [Formatting] in
theorem Inlined.append {self : Evaluator} {host : HostId}
    {front back : List (Event effects)} {ran more : List (Worker × Outcome)}
    (first : Inlined self host front ran)
    (second : Inlined self host back more) :
    Inlined self host (front ++ back) (ran ++ more) := by
  induction first with
  | nil => exact second
  | cons path _ induction =>
      have joined := Inlined.cons path induction
      simpa using joined

/-- The threads of a smooth run have ended by themselves. -/
theorem joinedThreads_endOf {events : List (Event effects)}
    (smooth : ∀ event ∈ events, Smooth event) :
    ∀ thread ∈ joinedThreads events, EndOf thread.1 thread.2 := by
  intro thread member
  obtain ⟨⟨call, reply⟩, inside, started⟩ := List.mem_flatMap.mp member
  cases call with
  | spawn jobs =>
      have ends : List.Forall₂ EndOf jobs reply.1 ∧ reply.2 = none :=
        smooth _ inside
      exact List.forall₂_zip ends.1 started
  | _ => cases started

/-- The parent has only counted steps and used its host. -/
structure SameParent (before after : Interpreter) : Prop where
  inside : after.inParallelWorker = before.inParallelWorker
  host : after.runtime.host = before.runtime.host
  buffered : after.runtime.buffer.isSome = before.runtime.buffer.isSome

omit [Formatting] in
theorem SameParent.refl (state : Interpreter) : SameParent state state :=
  ⟨rfl, rfl, rfl⟩

omit [Formatting] in
theorem SameParent.trans {first second third : Interpreter}
    (before : SameParent first second) (after : SameParent second third) :
    SameParent first third :=
  ⟨after.inside.trans before.inside, after.host.trans before.host,
    after.buffered.trans before.buffered⟩

/-- Values with their numbers. -/
def numberedFrom (first : Nat) (values : List Value) : List (Nat × Value) :=
  (values.zipIdx first).map Prod.swap

def Worker.key (job : Worker) : Nat × Value :=
  (job.index, job.value)

section Prepare

variable {point : Point} {job : Nat → Value → HostId → Worker}

omit [Formatting] in
theorem path_tick {state after : Interpreter}
    {events : List (Event effects)} {result : Result Unit}
    (path : (tick point).Path state events result after) :
    SameParent state after ∧ after.runtime = state.runtime ∧
      ∃ granted, events = [⟨.tick, granted⟩] ∧
        (granted = true ∧ result = .ok () ∨
          granted = false ∧ ∃ error, result = .error (.error error) ∧
            error.kind = .stepLimit) := by
  obtain ⟨granted, rest, rfl, later⟩ := Comp.path_act.mp path
  cases granted with
  | false =>
      obtain ⟨rfl, same⟩ := Comp.path_ret.mp later
      cases same
      exact ⟨⟨rfl, rfl, rfl⟩, rfl, _, rfl, .inr ⟨rfl, _, rfl, rfl⟩⟩
  | true =>
      obtain ⟨rfl, same⟩ := Comp.path_ret.mp later
      cases same
      exact ⟨⟨rfl, rfl, rfl⟩, rfl, _, rfl, .inl ⟨rfl, rfl⟩⟩

omit [Formatting] in
theorem path_fork {state after : Interpreter}
    {events : List (Event effects)} {result : Result HostId}
    (path : (fork point).Path state events result after) :
    SameParent state after ∧ after.output = state.output ∧
      ∃ reply, events = [⟨.call (state.runtime.host, .fork), reply⟩] ∧
        ((∃ host, reply = .ok () ∧ result = .ok host) ∨
          ∃ message error, reply = .error message ∧
            result = .error (.error error) ∧ error.kind = .host message) := by
  obtain ⟨front, back, value, middle, rfl, called, rest⟩ |
    ⟨reason, rfl, called⟩ := path_bind.mp path
  · obtain ⟨rfl, reply, rfl, ⟨answer, rfl, _⟩ | ⟨message, _, wrong⟩⟩ :=
      path_call called
    · obtain ⟨rfl, same⟩ := Comp.path_ret.mp rest
      cases same
      exact ⟨⟨rfl, rfl, rfl⟩, rfl, _, rfl, .inl ⟨_, rfl, rfl⟩⟩
    · cases wrong
  · obtain ⟨rfl, reply, rfl, ⟨answer, _, wrong⟩ | ⟨message, rfl, same⟩⟩ :=
      path_call called
    · cases wrong
    · cases same
      exact ⟨.refl _, rfl, _, rfl, .inr ⟨message, _, rfl, rfl, rfl⟩⟩

/-- A step and a fork for each of a number of values. -/
def preparation (host : HostId) (values : List Value) :
    List (Event effects) :=
  values.flatMap fun _ => [⟨.tick, true⟩, ⟨.call (host, .fork), .ok ()⟩]

/-- Every value of a batch gets a step, a host and a job. -/
theorem path_prepare
    (keyed : ∀ i value host, (job i value host).key = (i, value))
    {i : Nat} {values : List Value} {state after : Interpreter}
    {events : List (Event effects)} {result : Result (List Worker)}
    (path : (prepare point job i values).Path state events result after) :
    SameParent state after ∧ after.output = state.output ∧
      (∀ host, printed host events = []) ∧ spawned events = [] ∧
      ((∃ jobs, result = .ok jobs ∧
          jobs.map Worker.key = numberedFrom i values ∧
          events = preparation state.runtime.host values) ∨
        (∃ event ∈ events, ¬ Smooth event) ∧ ∃ error,
          result = .error (.error error) ∧ ParentError error.kind) := by
  induction values generalizing i state events result with
  | nil =>
      obtain ⟨rfl, rfl, rfl⟩ := path_pure.mp path
      exact ⟨.refl _, rfl, fun _ => rfl, rfl, .inl ⟨[], rfl, rfl, rfl⟩⟩
  | cons value values induction =>
      obtain ⟨front, back, _, middle, rfl, ticked, later⟩ |
        ⟨reason, rfl, ticked⟩ := path_bind.mp path
      · obtain ⟨same, runtime, granted, rfl, ⟨rfl, _⟩ | ⟨_, _, wrong, _⟩⟩ :=
          path_tick ticked
        · obtain ⟨front, back, host, state', rfl, forked, last⟩ |
            ⟨reason, rfl, forked⟩ := path_bind.mp later
          · obtain ⟨same', output, reply, rfl, ⟨_, rfl, _⟩ |
              ⟨_, _, _, wrong, _⟩⟩ := path_fork forked
            · obtain ⟨front, back, jobs, _, rfl, prepared, final⟩ |
                ⟨reason, rfl, prepared⟩ := path_bind.mp last
              · obtain ⟨rfl, rfl, rfl⟩ := path_pure.mp final
                obtain ⟨same'', output', quiet, calm, done⟩ :=
                  induction prepared
                have same_host := same.host
                refine ⟨same.trans (same'.trans same''), ?_, ?_, ?_, ?_⟩
                · rw [output', output]
                  simp only [Interpreter.output, runtime]
                · intro host
                  simpa [printed, printed?] using quiet host
                · simpa [spawned, spawned?] using calm
                · left
                  obtain ⟨jobs', same, keys, steps⟩ | ⟨_, _, wrong, _⟩ := done
                  · cases same
                    refine ⟨_, rfl, ?_, ?_⟩
                    · rw [List.map_cons, keyed, keys]
                      rfl
                    · rw [steps, same'.host, same_host]
                      simp [preparation]
                  · cases wrong
              · obtain ⟨same'', output', quiet, calm, done⟩ :=
                  induction prepared
                refine ⟨same.trans (same'.trans same''), ?_, ?_, ?_, ?_⟩
                · rw [output', output]
                  simp only [Interpreter.output, runtime]
                · intro host
                  simpa [printed, printed?] using quiet host
                · simpa [spawned, spawned?] using calm
                · right
                  obtain ⟨_, wrong, _⟩ | ⟨⟨event, member, rough⟩, error,
                    same, kind⟩ := done
                  · cases wrong
                  · cases same
                    exact ⟨⟨event, by simp [member], rough⟩, error, rfl,
                      kind⟩
            · cases wrong
          · obtain ⟨same', output, reply, rfl, ⟨_, _, wrong⟩ |
              ⟨message, error, rfl, same'', kind⟩⟩ := path_fork forked
            · cases wrong
            · cases same''
              refine ⟨same.trans same', ?_, ?_, ?_, .inr ⟨⟨_,
                List.mem_append_right _ (List.mem_singleton_self _), ?_⟩,
                error, rfl, ?_⟩⟩
              · rw [output]
                simp only [Interpreter.output, runtime]
              · intro host
                rfl
              · rfl
              · rintro ⟨answer, wrong⟩
                cases wrong
              · rw [kind]
                exact .host message
        · cases wrong
      · obtain ⟨same, runtime, granted, rfl, ⟨_, wrong⟩ |
          ⟨rfl, error, same', kind⟩⟩ := path_tick ticked
        · cases wrong
        · cases same'
          refine ⟨same, ?_, fun _ => rfl, rfl, .inr ⟨⟨_,
            List.mem_singleton_self _, Bool.false_ne_true⟩, error, rfl, ?_⟩⟩
          · simp only [Interpreter.output, runtime]
          · rw [kind]
            exact .stepLimit

end Prepare

section Jobs

variable {self : Evaluator} {point : Point} {jobs : List Worker}
  {state after : Interpreter} {events : List (Event effects)}

omit [Formatting] in
theorem path_joinOutcome {job : Worker} {done : WorkerEnd}
    {result : Result Outcome} (regular : done ≠ .outOfFuel)
    (path : (joinOutcome point job done).Path state events result after) :
    events = [] ∧ after = state ∧ ∃ outcome, result = .ok outcome ∧
      Joins job done outcome := by
  cases done with
  | finished outcome =>
      obtain ⟨rfl, rfl, rfl⟩ := path_pure.mp path
      exact ⟨rfl, rfl, outcome, rfl, rfl⟩
  | panicked =>
      obtain ⟨rfl, same⟩ := Comp.path_ret.mp path
      cases same
      exact ⟨rfl, rfl, _, rfl, rfl, _, rfl, rfl⟩
  | outOfFuel => exact absurd rfl regular

theorem endOf_regular {job : Worker} {done : WorkerEnd}
    (ended : EndOf job done) : done ≠ .outOfFuel := by
  obtain rfl | ⟨_, _, rfl, _⟩ := ended <;> exact nofun

/-- Every job of a batch is joined with the end of its own thread. -/
theorem path_joinOutcomes {ends : List WorkerEnd}
    {result : Result (List Outcome)} (ended : List.Forall₂ EndOf jobs ends)
    (path : (joinOutcomes point jobs ends).Path state events result after) :
    events = [] ∧ after = state ∧ ∃ outcomes, result = .ok outcomes ∧
      outcomes.length = jobs.length ∧
      List.Forall₂ Handed (jobs.zip ends)
        (jobs.zip outcomes) := by
  induction ended generalizing events result with
  | nil =>
      obtain ⟨rfl, rfl, rfl⟩ := path_pure.mp path
      exact ⟨rfl, rfl, [], rfl, rfl, .nil⟩
  | cons first _ induction =>
      obtain ⟨front, back, outcome, middle, rfl, joined, later⟩ |
        ⟨reason, rfl, joined⟩ := path_bind.mp path
      · obtain ⟨rfl, rfl, _, same, joins⟩ :=
          path_joinOutcome (endOf_regular first) joined
        cases same
        obtain ⟨front, back, outcomes, last, rfl, rest, final⟩ |
          ⟨reason, rfl, rest⟩ := path_bind.mp later
        · obtain ⟨rfl, rfl, rfl⟩ := path_pure.mp final
          obtain ⟨rfl, rfl, _, same, length, every⟩ := induction rest
          cases same
          exact ⟨rfl, rfl, _, rfl, congrArg Nat.succ length,
            .cons ⟨rfl, joins⟩ every⟩
        · obtain ⟨_, _, _, wrong, _⟩ := induction rest
          cases wrong
      · obtain ⟨_, _, _, wrong, _⟩ :=
          path_joinOutcome (endOf_regular first) joined
        cases wrong

theorem path_runThreads {result : Result (List Outcome)}
    (smooth : ∀ event ∈ events, Smooth event)
    (path : (runThreads point jobs).Path state events result after) :
    after = state ∧ (∀ host, printed host events = []) ∧
      spawned events = [jobs] ∧ ∃ outcomes, result = .ok outcomes ∧
        outcomes.length = jobs.length ∧
        List.Forall₂ Handed (joinedThreads events)
          (jobs.zip outcomes) := by
  obtain ⟨reply, rest, rfl, later⟩ := Comp.path_act.mp path
  have started : List.Forall₂ EndOf jobs reply.1 ∧ reply.2 = none :=
    smooth ⟨.spawn jobs, reply⟩ List.mem_cons_self
  obtain ⟨ends, refusal⟩ := reply
  obtain ⟨ends', refused⟩ := started
  cases (refused : refusal = none)
  have joins : Interp.Path (do
      let outcomes ← joinOutcomes point jobs ends
      let refused ← refusedOutcome point jobs ends.length none
      pure (outcomes ++ refused)) state rest result after := later
  obtain ⟨front, back, outcomes, middle, rfl, joined, last⟩ |
    ⟨reason, rfl, joined⟩ := path_bind.mp joins
  · obtain ⟨rfl, rfl, _, same, length, executed⟩ :=
      path_joinOutcomes ends' joined
    cases same
    obtain ⟨rfl, same⟩ := Comp.path_ret.mp last
    cases same
    rw [← List.append_nil outcomes] at length
    refine ⟨rfl, fun _ => rfl, rfl, _, rfl, length, ?_⟩
    simpa [joinedThreads, joinedThreads?] using executed
  · obtain ⟨_, _, _, wrong, _⟩ := path_joinOutcomes ends' joined
    cases wrong

omit [Formatting] in
theorem executeWorker_result {job : Worker} {result : Result Outcome}
    (path : (executeWorker self job).Path events result) :
    (∃ outcome, result = .ok outcome) ∨ result = .error .panic ∨
      result = .error .outOfFuel := by
  obtain ⟨_, _, ⟨flow, last⟩, _, _, rest⟩ := Comp.path_bind.mp path
  obtain ⟨_, rfl⟩ := Comp.path_ret.mp rest
  obtain (error | _ | _) | _ := flow
  · exact .inl ⟨_, rfl⟩
  · exact .inr (.inl rfl)
  · exact .inr (.inr rfl)
  · exact .inl ⟨_, rfl⟩

omit [Formatting] in
theorem path_runJobs {result : Result (List Outcome)} :
    (runJobs self point jobs).Path state events result after ↔
      (if state.inParallelWorker then runInline self jobs
        else runThreads point jobs).Path state events result after :=
  Iff.rfl

omit [Formatting] in
/-- A job that is executed in this thread leaves the state as it is. -/
theorem path_inline {job : Worker} {outcome : Result Outcome}
    (path : Interp.Path (fun state => (executeWorker self job).bind
      fun result => .ret (result, state)) state events outcome after) :
    after = state ∧ (executeWorker self job).Path events outcome := by
  obtain ⟨front, back, result, rfl, first, rest⟩ := Comp.path_bind.mp path
  obtain ⟨rfl, same⟩ := Comp.path_ret.mp rest
  cases same
  exact ⟨rfl, by simpa using first⟩

omit [Formatting] in
/-- Jobs that are executed in this thread have outcomes, unless one panics. -/
theorem path_runInline {result : Result (List Outcome)}
    (path : (runInline self jobs).Path state events result after) :
    after = state ∧ ((∃ ran : List (List (Event effects) × Outcome),
        result = .ok (ran.map Prod.snd) ∧
        events = (ran.map Prod.fst).flatten ∧
        List.Forall₂ (fun job run =>
          (executeWorker self job).Path run.1 (.ok run.2)) jobs ran) ∨
      result = .error .panic ∨ result = .error .outOfFuel) := by
  induction jobs generalizing events result with
  | nil =>
      obtain ⟨rfl, rfl, rfl⟩ := path_pure.mp path
      exact ⟨rfl, .inl ⟨[], rfl, rfl, .nil⟩⟩
  | cons job jobs induction =>
      obtain ⟨front, back, outcome, middle, rfl, executed, later⟩ |
        ⟨reason, rfl, executed⟩ := path_bind.mp path
      · obtain ⟨rfl, begun⟩ := path_inline executed
        obtain ⟨front', back, outcomes, last, rfl, rest, final⟩ |
          ⟨reason, rfl, rest⟩ := path_bind.mp later
        · obtain ⟨rfl, rfl, rfl⟩ := path_pure.mp final
          obtain ⟨rfl, ⟨ran, same, rfl, every⟩ | wrong | wrong⟩ :=
            induction rest
          · cases same
            exact ⟨rfl, .inl ⟨(front, outcome) :: ran, rfl, by simp,
              .cons begun every⟩⟩
          · cases wrong
          · cases wrong
        · obtain ⟨rfl, ⟨_, wrong, _⟩ | same | same⟩ := induction rest
          · cases wrong
          · cases same
            exact ⟨rfl, .inr (.inl rfl)⟩
          · cases same
            exact ⟨rfl, .inr (.inr rfl)⟩
      · obtain ⟨rfl, begun⟩ := path_inline executed
        obtain ⟨_, wrong⟩ | same | same := executeWorker_result begun
        · cases wrong
        · cases same
          exact ⟨rfl, .inr (.inl rfl)⟩
        · cases same
          exact ⟨rfl, .inr (.inr rfl)⟩

end Jobs

section Deliver

variable {point : Point} {state after : Interpreter}
  {events : List (Event effects)}

theorem path_deliverLines_outside {lines : List String}
    {result : Result (Option RuntimeError)}
    (direct : state.runtime.buffer = none)
    (smooth : ∀ event ∈ events, Smooth event)
    (path : (deliverLines point lines).Path state events result after) :
    after = state ∧ result = .ok none ∧ spawned events = [] ∧
      printed state.runtime.host events = lines := by
  induction lines generalizing events with
  | nil =>
      obtain ⟨rfl, rfl, rfl⟩ := path_pure.mp path
      exact ⟨rfl, rfl, rfl, rfl⟩
  | cons line lines induction =>
      obtain ⟨front, back, ⟨outcome, middle⟩, rfl, first, rest⟩ :=
        Comp.path_bind.mp path
      have called : Interp.Path (call point (.print line)) state front outcome
          middle := by
        simpa [Interp.Path, print, direct] using first
      obtain ⟨rfl, reply, rfl, ⟨answer, rfl, same⟩ |
        ⟨message, rfl, _⟩⟩ := path_call called
      · cases same
        obtain ⟨rfl, rfl, calm, prints⟩ := induction
          (fun event member => smooth event (List.mem_cons_of_mem _ member))
          rest
        refine ⟨rfl, rfl, ?_, ?_⟩
        · simpa [spawned, spawned?] using calm
        · simpa [printed, printed?] using prints
      · obtain ⟨answer, wrong⟩ := smooth _ List.mem_cons_self
        cases wrong

omit [Formatting] in
theorem push_output {buffer after : WorkerBuffer} {text : String}
    (pushed : buffer.push text = some after) :
    after.output = buffer.output ++ [text] := by
  unfold WorkerBuffer.push at pushed
  split at pushed
  · cases pushed
  · split at pushed
    · cases pushed
      rfl
    · cases pushed

omit [Formatting] in
/-- In a worker, lines are buffered up to the first that does not fit. -/
theorem path_deliverLines_inside {lines : List String}
    {result : Result (Option RuntimeError)}
    (buffered : state.runtime.buffer.isSome = true)
    (path : (deliverLines point lines).Path state events result after) :
    SameParent state after ∧ events = [] ∧
      (result = .ok none ∧ after.output = state.output ++ lines ∨
        ∃ error, result = .ok (some error) ∧ ParentError error.kind) := by
  induction lines generalizing state events with
  | nil =>
      obtain ⟨rfl, rfl, rfl⟩ := path_pure.mp path
      exact ⟨.refl _, rfl, .inl ⟨rfl, by simp⟩⟩
  | cons line lines induction =>
      obtain ⟨buffer, found⟩ := Option.isSome_iff_exists.mp buffered
      obtain ⟨front, back, ⟨outcome, middle⟩, rfl, first, rest⟩ :=
        Comp.path_bind.mp path
      cases pushed : buffer.push line with
      | none =>
          have failed : (fail point .outputLimit : Interp Unit).Path state
              front outcome middle := by
            simpa [Interp.Path, print, found, pushed] using first
          obtain ⟨rfl, same⟩ := Comp.path_ret.mp failed
          cases same
          obtain ⟨rfl, same⟩ := Comp.path_ret.mp rest
          cases same
          exact ⟨.refl _, rfl, .inr ⟨_, rfl, .outputLimit⟩⟩
      | some later =>
          have buffers : Comp.Path (.ret (.ok (), { state with
              runtime := { state.runtime with buffer := some later } }))
              front (outcome, middle) := by
            simpa [Interp.Path, print, found, pushed] using first
          obtain ⟨rfl, same⟩ := Comp.path_ret.mp buffers
          cases same
          obtain ⟨same, rfl, done⟩ := induction rfl rest
          refine ⟨⟨same.inside, same.host, ?_⟩, rfl, ?_⟩
          · rw [same.buffered, found]
            rfl
          · obtain ⟨rfl, output⟩ | lost := done
            · left
              refine ⟨rfl, ?_⟩
              rw [output]
              simp [Interpreter.output, found, push_output pushed]
            · exact .inr lost

theorem path_deliver_outside {outcomes : List Outcome}
    {first : Option RuntimeError} {result : Result (Option RuntimeError)}
    (direct : state.runtime.buffer = none)
    (smooth : ∀ event ∈ events, Smooth event)
    (path : (deliver point outcomes first).Path state events result after) :
    after = state ∧ spawned events = [] ∧
      result = .ok (first.or (outcomes.findSome? Outcome.error?)) ∧
      printed state.runtime.host events = outcomes.flatMap Outcome.output := by
  induction outcomes generalizing first events with
  | nil =>
      obtain ⟨rfl, rfl, rfl⟩ := path_pure.mp path
      exact ⟨rfl, rfl, by simp, rfl⟩
  | cons outcome outcomes induction =>
      obtain ⟨front, back, lost, middle, rfl, lines, rest⟩ |
        ⟨reason, rfl, lines⟩ := path_bind.mp path
      · obtain ⟨rfl, same, calm, prints⟩ := path_deliverLines_outside direct
          (fun event member => smooth event
            (List.mem_append_left _ member)) lines
        cases same
        obtain ⟨rfl, calm', rfl, prints'⟩ := induction
          (fun event member => smooth event
            (List.mem_append_right _ member)) rest
        refine ⟨rfl, by simp [calm, calm'], ?_, by simp [prints, prints']⟩
        rw [List.findSome?_cons, Option.or_none]
        cases first <;> cases outcome.error? <;> rfl
      · obtain ⟨_, wrong, _⟩ := path_deliverLines_outside direct smooth lines
        cases wrong

omit [Formatting] in
/-- Inside a worker a batch has at most one outcome. -/
theorem path_deliver_inside {outcomes : List Outcome}
    {result : Result (Option RuntimeError)}
    (buffered : state.runtime.buffer.isSome = true)
    (single : outcomes.length ≤ 1)
    (path : (deliver point outcomes none).Path state events result after) :
    SameParent state after ∧ events = [] ∧
      (result = .ok (outcomes.findSome? Outcome.error?) ∧
          after.output = state.output ++ outcomes.flatMap Outcome.output ∨
        ∃ error, result = .ok (some error) ∧ ParentError error.kind) := by
  cases outcomes with
  | nil =>
      obtain ⟨rfl, rfl, rfl⟩ := path_pure.mp path
      exact ⟨.refl _, rfl, .inl ⟨rfl, by simp⟩⟩
  | cons outcome outcomes =>
      obtain rfl : outcomes = [] := by
        apply List.eq_nil_of_length_eq_zero
        simpa using single
      obtain ⟨front, back, lost, middle, rfl, lines, rest⟩ |
        ⟨reason, rfl, lines⟩ := path_bind.mp path
      · obtain ⟨rfl, rfl, rfl⟩ := path_pure.mp rest
        obtain ⟨same, rfl, ⟨none, output⟩ | ⟨error, some, kind⟩⟩ :=
          path_deliverLines_inside buffered lines
        · cases none
          refine ⟨same, rfl, .inl ⟨?_, by simp [output]⟩⟩
          cases failed : outcome.error? <;> simp [failed]
        · cases some
          exact ⟨same, rfl, .inr ⟨error, by simp, kind⟩⟩
      · obtain ⟨_, _, ⟨wrong, _⟩ | ⟨_, wrong, _⟩⟩ :=
          path_deliverLines_inside buffered lines
        · cases wrong
        · cases wrong

end Deliver

/-- One batch, up to its first error. -/
def runBatch (self : Evaluator) (point : Point)
    (job : Nat → Value → HostId → Worker) (first : Nat)
    (values : List Value) : Interp (Option RuntimeError) := do
  let jobs ← prepare point job first values
  let outcomes ← runJobs self point jobs
  deliver point outcomes none

omit [Formatting] in
theorem batches_cons (self : Evaluator) (point : Point)
    (job : Nat → Value → HostId → Worker) (width batch : Nat)
    (values : List Value) (rest : List (List Value)) :
    batches self point job width batch (values :: rest) =
      (runBatch self point job (batch * width) values >>= fun first =>
        finishBatch first >>= fun _ =>
          batches self point job width (batch + 1) rest) := by
  simp only [batches, runBatch, Interp.bind_assoc]

/-- The lines that the parent has printed. -/
def Delivered (state after : Interpreter) (events : List (Event effects))
    (lines : List String) : Prop :=
  if state.inParallelWorker then after.output = state.output ++ lines
  else printed state.runtime.host events = lines

def outputs (ran : List (Worker × Outcome)) : List String :=
  ran.flatMap fun entry => entry.2.output

/-- Every job of a batch has run, and its output was delivered. -/
structure BatchRan (given : Evaluator) (first : Nat) (values : List Value)
    (state after : Interpreter) (events : List (Event effects))
    (failed : Option RuntimeError) (ran : List (Worker × Outcome)) :
    Prop where
  keys : ran.map (fun entry => entry.1.key) = numberedFrom first values
  once : RanOnce given state events ran
  failed : failed = ran.findSome? fun entry => entry.2.error?
  delivered : Delivered state after events (outputs ran)
  spawned : state.inParallelWorker = false →
    spawned events = [ran.map Prod.fst]

/-- A worker buffers its output; other interpreters do not. -/
def Coherent (state : Interpreter) : Prop :=
  state.runtime.buffer.isSome = state.inParallelWorker

omit [Formatting] in
theorem SameParent.coherent {before after : Interpreter}
    (same : SameParent before after) (coherent : Coherent before) :
    Coherent after :=
  same.buffered.trans (coherent.trans same.inside.symm)

section Batch

variable {self : Evaluator} {point : Point}
  {job : Nat → Value → HostId → Worker} {first : Nat}
  {values : List Value} {state after : Interpreter}
  {events : List (Event effects)}
  (keyed : ∀ i value host, (job i value host).key = (i, value))
  (coherent : Coherent state)

omit [Formatting] in
theorem zip_outcomes {jobs : List Worker} {outcomes : List Outcome}
    (length : outcomes.length = jobs.length) :
    (jobs.zip outcomes).map Prod.fst = jobs ∧
      (jobs.zip outcomes).map Prod.snd = outcomes :=
  ⟨List.map_fst_zip length.ge, List.map_snd_zip length.le⟩

include keyed coherent

theorem path_runBatch_outside {result : Result (Option RuntimeError)}
    (outside : state.inParallelWorker = false)
    (smooth : ∀ event ∈ events, Smooth event)
    (path : (runBatch self point job first values).Path state events result
      after) :
    SameParent state after ∧ ∃ failed ran, result = .ok failed ∧
      BatchRan self first values state after events failed ran := by
  have within : ∀ {part}, part ⊆ events → ∀ event ∈ part, Smooth event :=
    fun inside event member => smooth event (inside member)
  obtain ⟨front, later, jobs, middle, rfl, prepared, rest⟩ |
    ⟨reason, rfl, prepared⟩ := path_bind.mp path
  · obtain ⟨same, output, quiet, calm, ⟨_, made, keys, _⟩ |
      ⟨_, _, wrong, _⟩⟩ := path_prepare keyed prepared
    · cases made
      have outside' : middle.inParallelWorker = false :=
        same.inside.trans outside
      have direct : middle.runtime.buffer = none := by
        have absent := same.coherent coherent
        rw [Coherent, outside'] at absent
        simpa using absent
      obtain ⟨center, back, outcomes, last, rfl, ran, final⟩ |
        ⟨reason, rfl, ran⟩ := path_bind.mp rest
      · have threads : (runThreads point jobs).Path middle center
            (.ok outcomes) last := by
          rw [path_runJobs, outside'] at ran
          exact ran
        obtain ⟨rfl, quiet', calm', _, done, length, joined⟩ :=
          path_runThreads (within (by simp)) threads
        cases done
        obtain ⟨rfl, calm'', rfl, prints⟩ :=
          path_deliver_outside direct (within (by simp)) final
        obtain ⟨firsts, seconds⟩ := zip_outcomes length
        refine ⟨same, _, jobs.zip outcomes, rfl, ?_, ?_, ?_, ?_, ?_⟩
        · rw [← keys, ← firsts, List.map_map]
          simp [Function.comp_def, firsts]
        · rw [RanOnce, if_neg (by simp [outside]), joinedThreads_append,
            joinedThreads_append, joinedThreads_of_calm calm,
            joinedThreads_of_calm calm'']
          simpa using joined
        · rw [Option.none_or, ← seconds, List.findSome?_map]
          simp [Function.comp_def, seconds]
        · unfold Delivered
          rw [if_neg (by simp [outside])]
          rw [printed_append, printed_append, quiet, quiet', ← same.host,
            prints, outputs, ← seconds, List.flatMap_map]
          simp [seconds]
        · intro _
          rw [spawned_append, spawned_append, calm, calm', calm'', firsts]
          rfl
      · have threads : (runThreads point jobs).Path middle later
            (.error reason) after := by
          rw [path_runJobs, outside'] at ran
          exact ran
        obtain ⟨_, _, _, _, wrong, _⟩ :=
          path_runThreads (within (by simp)) threads
        cases wrong
    · cases wrong
  · obtain ⟨_, _, _, _, ⟨_, wrong, _⟩ | ⟨⟨event, member, rough⟩, _⟩⟩ :=
      path_prepare keyed prepared
    · cases wrong
    · exact absurd (smooth event member) rough

/-- In a worker, either the parent fails by itself or the only iteration of
the batch has run. -/
theorem path_runBatch_inside {result : Result (Option RuntimeError)}
    (inside : state.inParallelWorker = true) (single : values.length = 1)
    (path : (runBatch self point job first values).Path state events result
      after) :
    SameParent state after ∧
      ((∃ failed ran, result = .ok failed ∧
          BatchRan self first values state after events failed ran) ∨
        (∃ error, result = .ok (some error) ∧ ParentError error.kind) ∨
        ∃ reason, result = .error reason ∧
          ∀ error, reason = .error error → ParentError error.kind) := by
  obtain ⟨front, later, jobs, middle, rfl, prepared, rest⟩ |
    ⟨reason, rfl, prepared⟩ := path_bind.mp path
  · obtain ⟨same, output, quiet, calm, ⟨_, made, keys, steps⟩ |
      ⟨_, _, wrong, _⟩⟩ := path_prepare keyed prepared
    · cases made
      obtain ⟨value, rfl⟩ := List.length_eq_one_iff.mp single
      obtain ⟨only, rfl⟩ : ∃ only, jobs = [only] := by
        apply List.length_eq_one_iff.mp
        have lengths := congrArg List.length keys
        simpa [numberedFrom] using lengths
      have inside' : middle.inParallelWorker = true :=
        same.inside.trans inside
      have buffered : middle.runtime.buffer.isSome = true :=
        (same.coherent coherent).trans inside'
      obtain ⟨center, back, outcomes, last, rfl, ran, final⟩ |
        ⟨reason, rfl, ran⟩ := path_bind.mp rest
      · have inline : (runInline self [only]).Path middle center
            (.ok outcomes) last := by
          rw [path_runJobs, inside'] at ran
          exact ran
        obtain ⟨rfl, ⟨ran, done, parts, executed⟩ | wrong | wrong⟩ :=
          path_runInline inline
        · cases done
          obtain ⟨⟨part, outcome⟩, _, own, ⟨⟩, rfl⟩ :=
            List.forall₂_cons_left_iff.mp executed
          rw [List.map_singleton, List.flatten_singleton] at parts
          subst parts
          obtain ⟨same', rfl, ⟨rfl, lines⟩ | lost⟩ :=
            path_deliver_inside buffered le_rfl final
          · refine ⟨same.trans same',
              .inl ⟨_, [(only, outcome)], rfl, ?_, ?_, ?_, ?_, ?_⟩⟩
            · simpa using keys
            · rw [RanOnce, if_pos inside, steps]
              simpa [preparation] using Inlined.cons own .nil
            · simp
            · unfold Delivered
              rw [if_pos inside, lines, output, outputs]
              simp
            · intro outside
              rw [inside] at outside
              cases outside
          · exact ⟨same.trans same', .inr (.inl lost)⟩
        · cases wrong
        · cases wrong
      · have inline : (runInline self [only]).Path middle later
            (.error reason) after := by
          rw [path_runJobs, inside'] at ran
          exact ran
        obtain ⟨rfl, ⟨_, wrong, _⟩ | stops | stops⟩ := path_runInline inline
        · cases wrong
        · cases stops
          exact ⟨same, .inr (.inr ⟨_, rfl, nofun⟩)⟩
        · cases stops
          exact ⟨same, .inr (.inr ⟨_, rfl, nofun⟩)⟩
    · cases wrong
  · obtain ⟨same, _, _, _, ⟨_, wrong, _⟩ | ⟨_, error, stops, kind⟩⟩ :=
      path_prepare keyed prepared
    · cases wrong
    · cases stops
      refine ⟨same, .inr (.inr ⟨_, rfl, ?_⟩)⟩
      intro error' found
      cases found
      exact kind

end Batch

/-- The parent's own steps, forks, spawns and prints succeed.  A worker cannot
be told from its iterations by its effects, but by its errors: those of an
iteration carry its number. -/
def Undisturbed (state : Interpreter) (events : List (Event effects))
    (result : Result Unit) : Prop :=
  if state.inParallelWorker then
    result = .ok () ∨ ∃ error index kind, result = .error (.error error) ∧
      error.kind = .iteration index kind
  else ∀ event ∈ events, Smooth event

/-- What a parallel statement has done: `ran` has the jobs that ran, in input
order, with their outcomes. -/
structure Iterated (given : Evaluator) (width first : Nat)
    (values : List Value) (state after : Interpreter)
    (events : List (Event effects)) (result : Result Unit)
    (ran : List (Worker × Outcome)) : Prop where
  keys : ran.map (fun entry => entry.1.key) =
    (numberedFrom first values).take ran.length
  once : RanOnce given state events ran
  complete : (∀ entry ∈ ran, entry.2.error? = none) →
    ran.length = values.length ∧ result = .ok ()
  stopped : ∀ i entry error, ran[i]? = some entry →
    entry.2.error? = some error →
    (∀ earlier ∈ ran.take i, earlier.2.error? = none) →
    ran.length = min values.length ((i / width + 1) * width) ∧
      result = .error (.error error)
  delivered : Delivered state after events (outputs ran)
  batches : state.inParallelWorker = false →
    (spawned events).flatten = ran.map Prod.fst ∧
      (spawned events).map (List.map Worker.value) =
        (chunks width values).take (spawned events).length

section Run

variable {self : Evaluator} {point : Point}
  {job : Nat → Value → HostId → Worker} {width : Nat}

omit [Formatting] in
theorem numberedFrom_length (first : Nat) (values : List Value) :
    (numberedFrom first values).length = values.length := by
  simp [numberedFrom]

omit [Formatting] in
theorem numberedFrom_append (first : Nat) (front back : List Value) :
    numberedFrom first (front ++ back) =
      numberedFrom first front ++
        numberedFrom (first + front.length) back := by
  simp [numberedFrom, List.zipIdx_append]

omit [Formatting] in
theorem numberedFrom_values (first : Nat) (values : List Value) :
    (numberedFrom first values).map Prod.snd = values := by
  simp [numberedFrom, Function.comp_def]

omit [Formatting] in
theorem Delivered.append {state middle after : Interpreter}
    {front back : List (Event effects)} {first rest : List String}
    (same : SameParent state middle)
    (before : Delivered state middle front first)
    (later : Delivered middle after back rest) :
    Delivered state after (front ++ back) (first ++ rest) := by
  unfold Delivered at *
  rw [same.inside, same.host] at later
  split
  case isTrue inside =>
    rw [if_pos inside] at before later
    rw [later, before, List.append_assoc]
  case isFalse outside =>
    rw [if_neg outside] at before later
    rw [printed_append, before, later]

omit [Formatting] in
theorem RanOnce.append {state middle : Interpreter}
    {front back : List (Event effects)} {ran more : List (Worker × Outcome)}
    (same : SameParent state middle)
    (before : RanOnce self state front ran)
    (later : RanOnce self middle back more) :
    RanOnce self state (front ++ back) (ran ++ more) := by
  unfold RanOnce at *
  rw [same.inside, same.host] at later
  split
  case isTrue inside =>
    rw [if_pos inside] at before later
    exact before.append later
  case isFalse outside =>
    rw [if_neg outside] at before later
    rw [joinedThreads_append]
    exact List.rel_append before later

section Chunk

variable {first : Nat} {front back : List Value}
  {state middle after : Interpreter} {events later : List (Event effects)}
  {ran more : List (Worker × Outcome)}
  (positive : 0 < width) (bound : front.length ≤ width)
  (filled : back ≠ [] → front.length = width)
  (chunked : chunks width (front ++ back) = front :: chunks width back)

include bound chunked

omit [Formatting] in
/-- A batch with a failure is the last one. -/
theorem BatchRan.last {error : RuntimeError}
    (batch : BatchRan self first front state middle events (some error) ran)
    (filled : back ≠ [] → front.length = width) :
    Iterated self width first (front ++ back) state middle events
      (.error (.error error)) ran := by
  have length : ran.length = front.length := by
    have lengths := congrArg List.length batch.keys
    simpa [numberedFrom_length] using lengths
  constructor
  · rw [batch.keys, length, numberedFrom_append]
    rw [← numberedFrom_length first front, List.take_left]
  · exact batch.once
  · intro every
    have absent : ran.findSome? (fun entry => entry.2.error?) = none := by
      rw [List.findSome?_eq_none_iff]
      exact every
    rw [← batch.failed] at absent
    cases absent
  · intro i entry error' found failed earlier
    have inside : i < ran.length := (List.getElem?_eq_some_iff.mp found).1
    have firsts : ran.findSome? (fun entry => entry.2.error?) =
        some error' := by
      rw [← List.take_append_drop i ran, List.findSome?_append,
        List.findSome?_eq_none_iff.mpr earlier, Option.none_or,
        List.drop_eq_getElem_cons inside]
      rw [(List.getElem?_eq_some_iff.mp found).2]
      simp [failed]
    rw [← batch.failed] at firsts
    cases firsts
    refine ⟨?_, rfl⟩
    have single : i / width = 0 := Nat.div_eq_of_lt (by omega)
    rw [single, Nat.zero_add, Nat.one_mul, length, List.length_append]
    by_cases empty : back = []
    · rw [empty, List.length_nil, Nat.add_zero, min_eq_left bound]
    · rw [filled empty, min_eq_right (Nat.le_add_right _ _)]
  · exact batch.delivered
  · intro outside
    rw [batch.spawned outside, chunked]
    refine ⟨by simp, ?_⟩
    have values : ran.map (fun entry => entry.1.value) = front := by
      have keys := congrArg (List.map Prod.snd) batch.keys
      rw [numberedFrom_values, List.map_map] at keys
      exact keys
    simp [Function.comp_def, values]

include positive

omit bound [Formatting] in
/-- A batch without a failure, and the batches after it. -/
theorem BatchRan.next {result : Result Unit}
    (batch : BatchRan self first front state middle events none ran)
    (same : SameParent state middle)
    (filled : back ≠ [] → front.length = width)
    (rest : Iterated self width (first + width) back middle after later
      result more) :
    Iterated self width first (front ++ back) state after (events ++ later)
      result (ran ++ more) := by
  have length : ran.length = front.length := by
    have lengths := congrArg List.length batch.keys
    simpa [numberedFrom_length] using lengths
  have passed : ∀ entry ∈ ran, entry.2.error? = none := by
    rw [← List.findSome?_eq_none_iff, ← batch.failed]
  have numbers : numberedFrom (first + front.length) back =
      numberedFrom (first + width) back := by
    by_cases empty : back = []
    · rw [empty]
      rfl
    · rw [filled empty]
  constructor
  · have own : (numberedFrom first front).take (front.length + more.length) =
        numberedFrom first front := by
      apply List.take_of_length_le
      rw [numberedFrom_length]
      exact Nat.le_add_right _ _
    rw [List.map_append, batch.keys, rest.keys, numberedFrom_append, numbers,
      List.length_append, length, List.take_append, numberedFrom_length, own,
      Nat.add_sub_cancel_left]
  · exact batch.once.append same rest.once
  · intro every
    obtain ⟨total, done⟩ := rest.complete fun entry member =>
      every entry (List.mem_append_right _ member)
    rw [List.length_append, List.length_append, length, total]
    exact ⟨rfl, done⟩
  · intro i entry error found failed earlier
    have beyond : ran.length ≤ i := by
      by_contra inside
      rw [List.getElem?_append_left (by omega)] at found
      rw [passed entry (List.mem_of_getElem? found)] at failed
      cases failed
    rw [List.getElem?_append_right beyond] at found
    obtain ⟨total, done⟩ := rest.stopped (i - ran.length) entry error found
      failed (by
        intro before member
        apply earlier
        rw [List.take_append, List.take_of_length_le beyond]
        exact List.mem_append_right _ member)
    refine ⟨?_, done⟩
    have more : back ≠ [] := by
      rintro rfl
      have none : more.length = 0 := by
        rw [total]
        simp
      rw [List.eq_nil_of_length_eq_zero none] at found
      cases found
    have full := filled more
    have shifted : i / width = (i - ran.length) / width + 1 := by
      rw [length, full]
      rw [← Nat.add_div_right _ positive, Nat.sub_add_cancel (by omega)]
    rw [List.length_append, List.length_append, length, total, full, shifted,
      ← Nat.add_min_add_left]
    congr 1
    ring
  · have joined := batch.delivered.append same rest.delivered
    simpa [outputs] using joined
  · intro outside
    obtain ⟨jobs, values⟩ := rest.batches (same.inside.trans outside)
    have own : ran.map (fun entry => entry.1.value) = front := by
      have keys := congrArg (List.map Prod.snd) batch.keys
      rw [numberedFrom_values, List.map_map] at keys
      exact keys
    rw [spawned_append, batch.spawned outside, chunked]
    refine ⟨by simp [jobs], ?_⟩
    simp [Function.comp_def, own, values]

end Chunk

/-- Every iteration runs once, up to the batch of the first failure. -/
theorem path_batches
    (keyed : ∀ i value host, (job i value host).key = (i, value))
    (positive : 0 < width) {batch : Nat} {values : List Value}
    {state after : Interpreter} {events : List (Event effects)}
    {result : Result Unit} (coherent : Coherent state)
    (single : state.inParallelWorker = true → width = 1)
    (undisturbed : Undisturbed state events result)
    (path : (batches self point job width batch (chunks width values)).Path
      state events result after) :
    ∃ ran, Iterated self width (batch * width) values state after events
      result ran := by
  induction size : values.length using Nat.strong_induction_on
    generalizing batch values state events with
  | _ count induction =>
  cases values with
  | nil =>
      obtain ⟨rfl, rfl, rfl⟩ := path_pure.mp path
      refine ⟨[], rfl, ?_, fun _ => ⟨rfl, rfl⟩, by simp, ?_, ?_⟩
      · unfold RanOnce
        split
        · exact .nil
        · exact .nil
      · unfold Delivered
        split
        · simp [outputs]
        · rfl
      · exact fun _ => ⟨rfl, rfl⟩
  | cons value rest =>
      have cut := chunks_cons positive value rest
      rw [cut, batches_cons] at path
      generalize chunk : (value :: rest).take width = front at path cut
      generalize others : (value :: rest).drop width = back at path cut
      have whole : value :: rest = front ++ back := by
        rw [← chunk, ← others, List.take_append_drop]
      have bound : front.length ≤ width := by
        rw [← chunk, List.length_take]
        exact min_le_left _ _
      have nonempty : 0 < front.length := by
        rw [← chunk, List.length_take, List.length_cons]
        omega
      have filled : back ≠ [] → front.length = width := by
        intro more
        rw [← chunk, List.length_take, min_eq_left]
        by_contra short
        apply more
        rw [← others, List.drop_eq_nil_of_le (by omega)]
      have shorter : back.length < count := by
        rw [← size, ← others, List.length_drop, List.length_cons]
        omega
      rw [whole] at cut ⊢
      obtain ⟨batched, later, failed, middle, rfl, ran, continues⟩ |
        ⟨reason, rfl, ran⟩ := path_bind.mp path
      · have step : SameParent state middle ∧ ∃ entries,
            BatchRan self (batch * width) front state middle batched failed
              entries := by
          cases inside : state.inParallelWorker with
          | false =>
              have smooth : ∀ event ∈ batched, Smooth event := by
                rw [Undisturbed, inside] at undisturbed
                exact fun event member =>
                  undisturbed event (List.mem_append_left _ member)
              obtain ⟨same, _, entries, done, held⟩ :=
                path_runBatch_outside keyed coherent inside smooth ran
              cases done
              exact ⟨same, entries, held⟩
          | true =>
              have single' : front.length = 1 := by
                have narrow := single inside
                omega
              obtain ⟨same, ⟨_, entries, done, held⟩ | ⟨error, done, kind⟩ |
                ⟨_, wrong, _⟩⟩ :=
                path_runBatch_inside keyed coherent inside single' ran
              · cases done
                exact ⟨same, entries, held⟩
              · cases done
                obtain ⟨rfl, stops⟩ : later = [] ∧
                    (result, after) = (.error (.error error), middle) := by
                  obtain ⟨_, _, _, _, _, wrong, _⟩ | ⟨_, rfl, stopped⟩ :=
                    path_bind.mp continues
                  · obtain ⟨_, wrong⟩ := Comp.path_ret.mp wrong
                    cases wrong
                  · obtain ⟨rfl, same⟩ := Comp.path_ret.mp stopped
                    cases same
                    exact ⟨rfl, rfl⟩
                cases stops
                rw [Undisturbed, inside] at undisturbed
                obtain wrong | ⟨_, index, inner, same, shape⟩ := undisturbed
                · cases wrong
                · cases same
                  rw [shape] at kind
                  cases kind
              · cases wrong
        obtain ⟨same, entries, held⟩ := step
        cases failed with
        | some error =>
            obtain ⟨_, _, _, _, _, wrong, _⟩ | ⟨_, rfl, stopped⟩ :=
              path_bind.mp continues
            · obtain ⟨_, wrong⟩ := Comp.path_ret.mp wrong
              cases wrong
            · obtain ⟨rfl, stops⟩ := Comp.path_ret.mp stopped
              cases stops
              rw [List.append_nil]
              exact ⟨entries, held.last bound cut filled⟩
        | none =>
            obtain ⟨_, back', _, _, rfl, finished, rest⟩ | ⟨_, _, wrong⟩ :=
              path_bind.mp continues
            · obtain ⟨rfl, finished⟩ := Comp.path_ret.mp finished
              cases finished
              rw [List.nil_append] at *
              have calm : Undisturbed middle back' result := by
                unfold Undisturbed at *
                rw [same.inside]
                split
                case isTrue inside =>
                  rw [if_pos inside] at undisturbed
                  exact undisturbed
                case isFalse outside =>
                  rw [if_neg outside] at undisturbed
                  exact fun event member => undisturbed event
                    (List.mem_append_right _ member)
              obtain ⟨more, iterated⟩ := induction back.length shorter
                (same.coherent coherent)
                (fun inside => single (same.inside ▸ inside)) calm rest rfl
              rw [Nat.add_mul, Nat.one_mul] at iterated
              exact ⟨entries ++ more,
                held.next positive cut same filled iterated⟩
            · obtain ⟨_, wrong⟩ := Comp.path_ret.mp wrong
              cases wrong
      · cases inside : state.inParallelWorker with
        | false =>
            rw [Undisturbed, inside] at undisturbed
            obtain ⟨_, _, _, wrong, _⟩ := path_runBatch_outside keyed coherent
              inside undisturbed ran
            cases wrong
        | true =>
            have single' : front.length = 1 := by
              have narrow := single inside
              omega
            obtain ⟨_, ⟨_, _, wrong, _⟩ | ⟨_, wrong, _⟩ | ⟨_, same, kind⟩⟩ :=
              path_runBatch_inside keyed coherent inside single' ran
            · cases wrong
            · cases wrong
            · cases same
              rw [Undisturbed, inside] at undisturbed
              obtain wrong | ⟨error, index, inner, same, shape⟩ := undisturbed
              · cases wrong
              · cases same
                have parent := kind error rfl
                rw [shape] at parent
                cases parent

end Run

omit [Formatting] in
/-- The job of an iteration, as `iterations` makes it. -/
theorem iterations_eq (self : Evaluator) (point : Point) (env : Environment)
    (variableName : String) (body : Stmt) (values : List Value)
    (state : Interpreter) :
    iterations self point env variableName body values state =
      batches self point (fun index value host =>
        ⟨self.clock, point, variableName, body, state.snapshotAt env,
          state.limits, index, value, host⟩) state.width 0
        (chunks state.width values) state :=
  rfl

/-- Value `i` is given to exactly one job, which reports the number `i + 1`.
All iterations run, or those up to the batch of the first failure, whose error
is returned; the output of all that ran is delivered in input order. -/
theorem iterations_once (self : Evaluator) (point : Point)
    (env : Environment) (variableName : String) (body : Stmt)
    (values : List Value) (state after : Interpreter)
    (events : List (Event effects)) (result : Result Unit)
    (workers : 0 < state.limits.parallelWorkers) (coherent : Coherent state)
    (undisturbed : Undisturbed state events result)
    (path : (iterations self point env variableName body values).Path state
      events result after) :
    ∃ ran, Iterated self state.width 0 values state after events result ran ∧
      ∀ entry ∈ ran, Numbered entry.1 entry.2 := by
  have positive : 0 < state.width := by
    unfold Interpreter.width
    split
    · exact Nat.one_pos
    · exact workers
  have single : state.inParallelWorker = true → state.width = 1 := by
    intro inside
    rw [Interpreter.width, if_pos inside]
  rw [Interp.Path, iterations_eq] at path
  obtain ⟨ran, iterated⟩ := path_batches (fun _ _ _ => rfl) positive coherent
    single undisturbed path
  rw [Nat.zero_mul] at iterated
  refine ⟨ran, iterated, ?_⟩
  have once := iterated.once
  unfold RanOnce at once
  unfold Undisturbed at undisturbed
  split at once
  · exact once.numbered
  · next outside =>
      rw [if_neg outside] at undisturbed
      exact joined_numbered (joinedThreads_endOf undisturbed) once

end Batches

/-- Three iterations in batches of two: the first two end, and the thread of
the third panics, which is reported under its number. -/
theorem iterations_once_panicked :
    let _formatting : Formatting := ⟨fun _ => "", fun text => text⟩
    let state := initialState 0 { parallelWorkers := 2 } ⟨[]⟩
    let job (index : Nat) (value : Value) (host : HostId) : Worker :=
      ⟨1, [], "v", .block [], state.snapshotAt initialEnvironment,
        state.limits, index, value, host⟩
    let done : WorkerEnd := .finished ⟨[], .ok ()⟩
    let error : RuntimeError := ⟨.iterationPanicked 3, [], none, []⟩
    let after : Interpreter :=
      { state with runtime := ⟨[], 3, none⟩, attempts := 3 }
    let prepared : List (Event effects) :=
      [⟨.tick, true⟩, ⟨.call ([], .fork), .ok ()⟩]
    let batch : List (Event effects) :=
      prepared ++ prepared ++
        [⟨.spawn [job 0 .null [0], job 1 (.boolean true) [1]],
          ([done, done], none)⟩]
    let remainder : List (Event effects) :=
      prepared ++ [⟨.spawn [job 2 (.integer 7) [2]], ([.panicked], none)⟩]
    ∃ ran, Iterated (evaluator 1) 2 0 [.null, .boolean true, .integer 7]
        state after (batch ++ remainder) (.error (.error error)) ran ∧
      ∀ entry ∈ ran, Numbered entry.1 entry.2 := by
  intro _ state job done error after prepared batch remainder
  let middle : Interpreter :=
    { state with runtime := ⟨[], 2, none⟩, attempts := 2 }
  have ends : ∀ index value host, EndOf (job index value host) done :=
    fun _ _ _ => .inr ⟨[⟨.observe _, ()⟩], _, rfl, .act (.ret _)⟩
  have smooth : ∀ event ∈ prepared, Smooth event := by
    intro event member
    simp only [prepared, List.mem_cons, List.not_mem_nil, or_false] at member
    obtain rfl | rfl := member
    · rfl
    · exact ⟨(), rfl⟩
  refine iterations_once (evaluator 1) [] initialEnvironment "v" (.block [])
    [.null, .boolean true, .integer 7] state after (batch ++ remainder)
    (.error (.error error)) (by decide) rfl ?_ ?_
  · intro event member
    simp only [batch, remainder, List.mem_append, List.mem_cons,
      List.not_mem_nil, or_false, or_assoc] at member
    obtain first | second | rfl | third | rfl := member
    · exact smooth event first
    · exact smooth event second
    · exact ⟨.cons (ends 0 _ _) (.cons (ends 1 _ _) .nil), rfl⟩
    · exact smooth event third
    · exact ⟨.cons (.inl rfl) .nil, rfl⟩
  · change (batches (evaluator 1) [] job 2 0
      [[.null, .boolean true], [.integer 7]]).Path state _ _ after
    have first : (runBatch (evaluator 1) [] job 0
        [.null, .boolean true]).Path state batch (.ok none) middle :=
      .act (.act (.act (.act (.act (.ret _)))))
    have second : (runBatch (evaluator 1) [] job 2 [.integer 7]).Path middle
        remainder (.ok (some error)) after :=
      .act (.act (.act (.ret _)))
    rw [batches_cons]
    refine path_bind.mpr
      (.inl ⟨batch, remainder, none, middle, rfl, first, ?_⟩)
    refine path_bind.mpr
      (.inl ⟨[], remainder, (), middle, rfl, .ret _, ?_⟩)
    rw [batches_cons]
    refine path_bind.mpr
      (.inl ⟨remainder, [], some error, after, rfl, second, ?_⟩)
    exact path_bind.mpr (.inr ⟨.error error, rfl, .ret _⟩)

end NetLang
