import NetLang.Relational.Manners
import NetLang.Theory.Buffers

/-!
# Parallel statements that are left alone

When a parallel statement is left alone and succeeds, so does every one of its
workers, and its output is theirs, in the order of the iterations.  The size
of the batches does not matter.
-/

namespace NetLang

open Interp

variable [Formatting] {α β : Type}

/-- Left alone, the computation returns a value. -/
def Returns (manners : Manners effects String) (comp : Interp α)
    (before : Interpreter) (units : Nat) (lines : List String) (value : α)
    (after : Interpreter) : Prop :=
  LeftAlone manners (comp before) units lines (.ok value, after)

section Returns

variable {manners : Manners effects String} {before after : Interpreter}
  {units : Nat} {lines : List String}

omit [Formatting] in
theorem returns_pure {a value : α} :
    Returns manners (pure a : Interp α) before units lines value after ↔
      units = 0 ∧ lines = [] ∧ value = a ∧ after = before := by
  constructor
  · intro returns
    cases returns
    exact ⟨rfl, rfl, rfl, rfl⟩
  · rintro ⟨rfl, rfl, rfl, rfl⟩
    exact .ret _

omit [Formatting] in
theorem not_returns_stop {reason : Stop} {value : α} :
    ¬ Returns manners (stop reason : Interp α) before units lines value
      after := by
  intro returns
  cases returns

omit [Formatting] in
theorem returns_bind {comp : Interp α} {f : α → Interp β} {value : β} :
    Returns manners (comp >>= f) before units lines value after ↔
      ∃ first front a middle second back, units = first + second ∧
        lines = front ++ back ∧
        Returns manners comp before first front a middle ∧
        Returns manners (f a) middle second back value after := by
  constructor
  · intro returns
    obtain ⟨first, front, ⟨result, middle⟩, second, back, rfl, rfl, one,
      two⟩ := LeftAlone.of_bind returns
    cases result with
    | ok a => exact ⟨first, front, a, middle, second, back, rfl, rfl, one, two⟩
    | error reason => cases two
  · rintro ⟨first, front, a, middle, second, back, rfl, rfl, one, two⟩
    exact LeftAlone.bind one two

omit [Formatting] in
theorem returns_reported {comp : Interp α} {value : α}
    {ended : Interpreter → Result α → Interpreter → Observation} :
    Returns manners (reported ended comp) before units lines value after ↔
      Returns manners comp before units lines value after := by
  constructor
  · intro returns
    obtain ⟨first, front, ⟨result, middle⟩, second, back, rfl, rfl, one,
      two⟩ := LeftAlone.of_bind returns
    cases two with
    | observe rest =>
        cases rest
        rw [Nat.add_zero, List.append_nil]
        exact one
  · intro returns
    rw [← Nat.add_zero units, ← List.append_nil lines]
    exact LeftAlone.bind returns (.observe (.ret _))

omit [Formatting] in
theorem returns_tick {point : Point} {value : Unit} :
    Returns manners (tick point) before units lines value after ↔
      units = 1 ∧ lines = [] ∧ after = attempted before := by
  constructor
  · intro returns
    cases returns with
    | tick rest =>
        cases rest
        exact ⟨rfl, rfl, rfl⟩
  · rintro ⟨rfl, rfl, rfl⟩
    exact .tick (.ret _)

/-- The state after some iterations have been prepared. -/
def Interpreter.advance (state : Interpreter) (count : Nat) : Interpreter :=
  { state with
    attempts := state.attempts + count
    runtime := { state.runtime with forks := state.runtime.forks + count } }

omit [Formatting] in
@[simp] theorem Interpreter.advance_zero (state : Interpreter) :
    state.advance 0 = state :=
  rfl

omit [Formatting] in
theorem Interpreter.advance_advance (state : Interpreter) (m n : Nat) :
    (state.advance m).advance n = state.advance (m + n) := by
  simp [Interpreter.advance, Nat.add_assoc]

/-- The workers of consecutive iterations. -/
def workersOf (job : Nat → Value → HostId → Worker) (host : HostId) :
    Nat → Nat → List Value → List Worker
  | _, _, [] => []
  | forks, i, value :: rest =>
      job i value (forks :: host) ::
        workersOf job host (forks + 1) (i + 1) rest

omit [Formatting] in
theorem workersOf_append (job : Nat → Value → HostId → Worker) (host : HostId)
    (forks i : Nat) (values rest : List Value) :
    workersOf job host forks i (values ++ rest) =
      workersOf job host forks i values ++
        workersOf job host (forks + values.length) (i + values.length)
          rest := by
  induction values generalizing forks i with
  | nil => rfl
  | cons value values induction =>
      simp only [List.cons_append, workersOf, induction, List.length_cons]
      congr 3 <;> omega

variable {worker : Bool}

theorem returns_fork {point : Point} {value : HostId} :
    Returns (NetLang.manners worker) (fork point) before units lines value
        after ↔
      units = 0 ∧ lines = [] ∧
        value = before.runtime.forks :: before.runtime.host ∧
        after = { before with
          runtime := { before.runtime with
            forks := before.runtime.forks + 1 } } := by
  constructor
  · intro returns
    obtain ⟨first, front, a, middle, second, back, rfl, rfl, one, two⟩ :=
      returns_bind.mp returns
    cases one with
    | @call operation next reply _ more _ granted rest =>
        have accepted := granted_of_manners granted
        cases (accepted : reply = .ok ())
        cases rest
        cases two
        refine ⟨rfl, ?_, rfl, rfl⟩
        cases worker <;> rfl
  · rintro ⟨rfl, rfl, rfl, rfl⟩
    refine returns_bind.mpr ⟨0, [], (), before, 0, [], rfl, rfl, ?_, .ret _⟩
    have granted : (NetLang.manners worker).grants
        (before.runtime.host, .fork) (.ok ()) := by
      cases worker with
      | true => exact ⟨rfl, rfl⟩
      | false => rfl
    have silent : (NetLang.manners worker).shown
        (before.runtime.host, .fork) = [] := by
      cases worker <;> rfl
    have called : LeftAlone (NetLang.manners worker)
        (call point .fork before) 0 ((NetLang.manners worker).shown
          (before.runtime.host, .fork) ++ []) (.ok (), before) :=
      .call granted (.ret _)
    rw [silent] at called
    exact called

theorem returns_prepare {point : Point}
    {job : Nat → Value → HostId → Worker} {i : Nat} {values : List Value}
    {jobs : List Worker} :
    Returns (NetLang.manners worker) (prepare point job i values) before
        units lines jobs after ↔
      units = values.length ∧ lines = [] ∧
        jobs = workersOf job before.runtime.host before.runtime.forks i
          values ∧ after = before.advance values.length := by
  induction values generalizing before after i units lines jobs with
  | nil => exact returns_pure
  | cons value rest induction =>
      simp only [prepare, returns_bind, returns_tick, returns_fork, induction,
        returns_pure]
      constructor
      · rintro ⟨_, _, _, _, _, _, rfl, rfl, ⟨rfl, rfl, rfl⟩, _, _, _, _, _, _,
          rfl, rfl, ⟨rfl, rfl, rfl, rfl⟩, _, _, _, _, _, _, rfl, rfl,
          ⟨rfl, rfl, rfl, rfl⟩, rfl, rfl, rfl, rfl⟩
        refine ⟨?_, rfl, rfl, ?_⟩
        · simp only [List.length_cons]
          omega
        · simp only [Interpreter.advance, attempted, List.length_cons]
          congr 1
          · congr 1
            omega
          · omega
      · rintro ⟨rfl, rfl, rfl, rfl⟩
        refine ⟨1, [], (), _, rest.length, [], ?_, rfl, ⟨rfl, rfl, rfl⟩,
          0, [], _, _, rest.length, [], ?_, rfl, ⟨rfl, rfl, rfl, rfl⟩,
          rest.length, [], _, _, 0, [], rfl, rfl, ⟨rfl, rfl, rfl, rfl⟩,
          rfl, rfl, rfl, ?_⟩
        · simp only [List.length_cons]
          omega
        · omega
        · simp only [Interpreter.advance, attempted, List.length_cons]
          congr 1
          · congr 1
            omega
          · omega

end Returns

section Workers

/-- Workers that succeed when each of them is left alone, with their
output. -/
inductive Worked : List Worker → List (List String) → Nat → Prop where
  | nil : Worked [] [] 0
  | cons {job : Worker} {jobs : List Worker} {output : List String}
      {outputs : List (List String)} {units spent : Nat} :
      LeftAlone workerManners (executeWorker (evaluator job.clock) job)
        units [] (.ok ⟨output, .ok ()⟩) →
      Worked jobs outputs spent →
      Worked (job :: jobs) (output :: outputs) (units + spent)

theorem Worked.append {jobs more : List Worker}
    {outputs others : List (List String)} {spent rest : Nat}
    (worked : Worked jobs outputs spent) (later : Worked more others rest) :
    Worked (jobs ++ more) (outputs ++ others) (spent + rest) := by
  induction worked with
  | nil => simpa using later
  | cons first _ induction =>
      rw [Nat.add_assoc]
      exact .cons first induction

theorem Worked.of_append {jobs more : List Worker}
    {outputs : List (List String)} {spent : Nat}
    (worked : Worked (jobs ++ more) outputs spent) :
    ∃ first second front back, outputs = first ++ second ∧
      spent = front + back ∧ Worked jobs first front ∧
      Worked more second back := by
  induction jobs generalizing outputs spent with
  | nil => exact ⟨[], outputs, 0, spent, rfl, by simp, .nil, worked⟩
  | cons job rest induction =>
      cases worked with
      | @cons _ _ output _ units _ alone later =>
          obtain ⟨first, second, front, back, rfl, rfl, one, two⟩ :=
            induction later
          exact ⟨output :: first, second, units + front, back, rfl,
            (Nat.add_assoc _ _ _).symm, .cons alone one, two⟩

omit [Formatting] in
theorem Outcome.eq_of_clean {outcome : Outcome}
    (clean : outcome.error? = none) : outcome = ⟨outcome.output, .ok ()⟩ := by
  obtain ⟨output, result⟩ := outcome
  cases result with
  | ok done => rfl
  | error error => cases clean

/-- The outcome of a worker that has succeeded. -/
def succeeded (output : List String) : Outcome :=
  ⟨output, .ok ()⟩

omit [Formatting] in
/-- A worker that is left alone shows nothing. -/
theorem LeftAlone.silent {comp : Comp effects α} {units : Nat}
    {lines : List String} {value : α}
    (undisturbed : LeftAlone workerManners comp units lines value) :
    lines = [] := by
  induction undisturbed with
  | ret value => rfl
  | tick _ induction => exact induction
  | call _ _ induction => exact induction
  | spawn ended => exact ended.elim
  | observe _ induction => exact induction

/-- The thread of a worker that ends with an outcome. -/
theorem undisturbed_workerThread {job : Worker} {units : Nat}
    {outcome : Outcome} :
    LeftAlone workerManners (workerThread job) units [] (.finished outcome) ↔
      LeftAlone workerManners (executeWorker (evaluator job.clock) job)
        units [] (.ok outcome) := by
  constructor
  · intro undisturbed
    obtain ⟨first, front, result, second, back, rfl, same, one, two⟩ :=
      LeftAlone.of_bind undisturbed
    obtain ⟨rfl, rfl⟩ := List.nil_eq_append_iff.mp same
    generalize ended : WorkerEnd.ofResult result = done at two
    generalize found : WorkerEnd.finished outcome = wanted at two
    cases two
    cases result with
    | error reason => cases reason <;> cases ended.trans found.symm
    | ok other =>
        cases ended.trans found.symm
        exact one
  · intro undisturbed
    have ended : LeftAlone workerManners
        (.ret (.ofResult (.ok outcome)) : Comp effects WorkerEnd) 0 []
        (.finished outcome) := .ret _
    exact LeftAlone.bind (f := fun result => .ret (WorkerEnd.ofResult result))
      undisturbed ended

variable {before after : Interpreter} {units : Nat} {lines : List String}
  {worker : Bool} {outcomes : List Outcome} {point : Point}

theorem worked_joinOutcomes {jobs : List Worker} {ends : List WorkerEnd}
    {spent : Nat}
    (returns : Returns (manners worker) (joinOutcomes point jobs ends) before
      units lines outcomes after)
    (clean : ∀ outcome ∈ outcomes, outcome.error? = none)
    (ended : AllLeftAlone workerManners (jobs.map workerThread) ends
      spent) :
    units = 0 ∧ lines = [] ∧ after = before ∧
      Worked jobs (outcomes.map Outcome.output) spent := by
  induction jobs generalizing ends spent units lines outcomes with
  | nil =>
      cases ended
      obtain ⟨rfl, rfl, rfl, rfl⟩ := returns_pure.mp returns
      exact ⟨rfl, rfl, rfl, .nil⟩
  | cons job rest induction =>
      obtain _ | ⟨alone, later⟩ := ended
      next done ends units' spent' =>
      obtain ⟨_, _, outcome, middle, _, _, rfl, rfl, joined, returns⟩ :=
        returns_bind.mp returns
      obtain ⟨_, _, others, last, _, _, rfl, rfl, joins, result⟩ :=
        returns_bind.mp returns
      obtain ⟨rfl, rfl, rfl, rfl⟩ := returns_pure.mp result
      cases done with
      | outOfFuel => exact (not_returns_stop joined).elim
      | panicked =>
          cases joined
          cases clean _ List.mem_cons_self
      | finished outcome' =>
          obtain ⟨rfl, rfl, rfl, rfl⟩ := returns_pure.mp joined
          obtain ⟨rfl, rfl, rfl, worked⟩ := induction joins
            (fun other member => clean other (List.mem_cons_of_mem _ member))
            later
          refine ⟨rfl, rfl, rfl, ?_⟩
          have first := undisturbed_workerThread.mp alone
          rw [Outcome.eq_of_clean (clean _ List.mem_cons_self)] at first
          exact .cons first worked

theorem worked_runThreads {jobs : List Worker}
    (returns : Returns mainManners (runThreads point jobs) before units lines
      outcomes after)
    (clean : ∀ outcome ∈ outcomes, outcome.error? = none) :
    lines = [] ∧ after = before ∧
      Worked jobs (outcomes.map Outcome.output) units := by
  obtain ⟨_, _, ⟨ends, refusal⟩, middle, _, _, rfl, rfl, spawned, returns⟩ :=
    returns_bind.mp returns
  cases spawned with
  | spawn ended rest =>
      cases rest
      obtain ⟨_, _, joined, _, _, _, rfl, rfl, one, returns⟩ :=
        returns_bind.mp returns
      obtain ⟨_, _, refused, _, _, _, rfl, rfl, two, result⟩ :=
        returns_bind.mp returns
      obtain ⟨rfl, rfl, rfl, rfl⟩ := returns_pure.mp two
      obtain ⟨rfl, rfl, rfl, rfl⟩ := returns_pure.mp result
      rw [List.append_nil] at clean
      have one' : Returns (manners false) _ _ _ _ _ _ := one
      obtain ⟨rfl, rfl, rfl, worked⟩ := worked_joinOutcomes one' clean ended
      refine ⟨rfl, rfl, ?_⟩
      simpa using worked

theorem worked_runInline {jobs : List Worker} {clock : Nat}
    (returns : Returns workerManners (runInline (evaluator clock) jobs) before
      units lines outcomes after)
    (clocks : ∀ job ∈ jobs, job.clock = clock)
    (clean : ∀ outcome ∈ outcomes, outcome.error? = none) :
    after = before ∧ Worked jobs (outcomes.map Outcome.output) units := by
  induction jobs generalizing units lines outcomes with
  | nil =>
      obtain ⟨rfl, rfl, rfl, rfl⟩ := returns_pure.mp returns
      exact ⟨rfl, .nil⟩
  | cons job rest induction =>
      obtain ⟨_, _, outcome, middle, _, _, rfl, rfl, ran, returns⟩ :=
        returns_bind.mp returns
      obtain ⟨_, _, others, last, _, _, rfl, rfl, returns, result⟩ :=
        returns_bind.mp returns
      obtain ⟨rfl, rfl, rfl, rfl⟩ := returns_pure.mp result
      obtain ⟨_, _, ended, _, _, rfl, rfl, one, two⟩ :=
        LeftAlone.of_bind ran
      cases two
      obtain ⟨rfl, worked⟩ := induction returns
        (fun other member => clocks other (List.mem_cons_of_mem _ member))
        (fun other member => clean other (List.mem_cons_of_mem _ member))
      refine ⟨rfl, ?_⟩
      have same := clocks job List.mem_cons_self
      rw [one.silent, Outcome.eq_of_clean (clean _ List.mem_cons_self),
        ← same] at one
      exact .cons one worked

theorem worked_runJobs {jobs : List Worker} {clock : Nat}
    (inside : before.inParallelWorker = worker)
    (returns : Returns (manners worker) (runJobs (evaluator clock) point jobs)
      before units lines outcomes after)
    (clocks : ∀ job ∈ jobs, job.clock = clock)
    (clean : ∀ outcome ∈ outcomes, outcome.error? = none) :
    lines = [] ∧ after = before ∧
      Worked jobs (outcomes.map Outcome.output) units := by
  have ran : LeftAlone (manners worker)
      ((if before.inParallelWorker then runInline (evaluator clock) jobs
        else runThreads point jobs) before) units lines
      (.ok outcomes, after) := returns
  rw [inside] at ran
  cases worker with
  | false => exact worked_runThreads ran clean
  | true =>
      obtain ⟨rfl, worked⟩ := worked_runInline ran clocks clean
      exact ⟨LeftAlone.silent ran, rfl, worked⟩

/-- Workers that succeed do so on threads of their own. -/
theorem Worked.runThreads {jobs : List Worker} {outputs : List (List String)}
    (worked : Worked jobs outputs units) :
    Returns mainManners (runThreads point jobs) before units []
      (outputs.map succeeded) before := by
  have ended : AllLeftAlone workerManners (jobs.map workerThread)
      (outputs.map fun output => .finished (succeeded output)) units := by
    induction worked with
    | nil => exact .nil
    | cons alone _ induction =>
        exact .cons (undisturbed_workerThread.mpr alone) induction
  have joined : Returns mainManners (joinOutcomes point jobs
      (outputs.map fun output => .finished (succeeded output))) before 0 []
      (outputs.map succeeded) before := by
    clear ended
    induction worked with
    | nil => exact .ret _
    | cons _ _ induction =>
        refine returns_bind.mpr ⟨0, [], _, before, 0, [], rfl, rfl,
          .ret _, ?_⟩
        exact returns_bind.mpr ⟨0, [], _, before, 0, [], rfl, rfl, induction,
          .ret _⟩
  have spawned : LeftAlone mainManners (spawn jobs before) (units + 0) []
      (.ok (outputs.map fun output => .finished (succeeded output), none),
        before) := .spawn ended (.ret _)
  refine returns_bind.mpr ⟨units, [], _, before, 0, [], rfl, rfl, spawned, ?_⟩
  refine returns_bind.mpr ⟨0, [], _, before, 0, [], rfl, rfl, joined, ?_⟩
  refine returns_bind.mpr ⟨0, [], [], before, 0, [], rfl, rfl, .ret _, ?_⟩
  rw [List.append_nil]
  exact .ret _

theorem Worked.runJobs {jobs : List Worker} {outputs : List (List String)}
    {clock : Nat} (inside : before.inParallelWorker = false)
    (worked : Worked jobs outputs units) :
    Returns mainManners (runJobs (evaluator clock) point jobs) before units []
      (outputs.map succeeded) before := by
  have ran : Returns mainManners (NetLang.runThreads point jobs) before units
      [] (outputs.map succeeded) before := worked.runThreads
  change LeftAlone mainManners
    ((if before.inParallelWorker then runInline (evaluator clock) jobs
      else NetLang.runThreads point jobs) before) units [] _
  rw [inside]
  exact ran

end Workers

section Delivery

/-- What a thread of some kind has put out on the way: it has been printed, or
is in the buffer of a worker. -/
def Emitted (worker : Bool) (before after : Interpreter)
    (lines texts : List String) : Prop :=
  if worker then lines = [] ∧ ∃ buffer, after = before.withBuffer buffer ∧
    buffer.output = before.output ++ texts
  else lines = texts ∧ after = before

/-- Whether a thread of some kind has a buffer. -/
def Buffers (worker : Bool) (state : Interpreter) : Prop :=
  state.runtime.buffer.isSome = worker

variable {worker : Bool} {before middle after : Interpreter}
  {lines texts more others : List String}

omit [Formatting] in
theorem Emitted.trans (first : Emitted worker before middle lines texts)
    (second : Emitted worker middle after more others) :
    Emitted worker before after (lines ++ more) (texts ++ others) := by
  cases worker with
  | true =>
      obtain ⟨rfl, buffer, rfl, output⟩ := first
      obtain ⟨rfl, buffer', rfl, output'⟩ := second
      refine ⟨rfl, buffer', rfl, ?_⟩
      rw [output', ← List.append_assoc, ← output]
      rfl
  | false =>
      obtain ⟨rfl, rfl⟩ := first
      obtain ⟨rfl, rfl⟩ := second
      exact ⟨rfl, rfl⟩

omit [Formatting] in
theorem emitted_nil (buffers : Buffers worker before) :
    Emitted worker before before [] [] := by
  cases worker with
  | false => exact ⟨rfl, rfl⟩
  | true =>
      obtain ⟨buffer, found⟩ := Option.isSome_iff_exists.mp buffers
      refine ⟨rfl, buffer, (Interpreter.withBuffer_self found).symm, ?_⟩
      simp [Interpreter.output, found]

omit [Formatting] in
theorem Emitted.advance (emitted : Emitted worker before after lines texts)
    (count : Nat) :
    Emitted worker (before.advance count) (after.advance count) lines
      texts := by
  cases worker with
  | true =>
      obtain ⟨rfl, buffer, rfl, output⟩ := emitted
      exact ⟨rfl, buffer, rfl, output⟩
  | false =>
      obtain ⟨rfl, rfl⟩ := emitted
      exact ⟨rfl, rfl⟩

omit [Formatting] in
/-- Output concerns nothing but the buffer. -/
theorem Emitted.same (emitted : Emitted worker before after lines texts)
    (buffers : Buffers worker before) :
    after.runtime.host = before.runtime.host ∧
      after.runtime.forks = before.runtime.forks ∧
      after.inParallelWorker = before.inParallelWorker ∧
      Buffers worker after := by
  cases worker with
  | true =>
      obtain ⟨rfl, buffer, rfl, output⟩ := emitted
      exact ⟨rfl, rfl, rfl, rfl⟩
  | false =>
      obtain ⟨rfl, rfl⟩ := emitted
      exact ⟨rfl, rfl, rfl, buffers⟩

variable {point : Point} {units : Nat} {outcomes : List Outcome}

/-- The main thread prints lines at once. -/
theorem returns_deliverLines {lost : Option RuntimeError}
    (direct : before.runtime.buffer = none) :
    Returns mainManners (deliverLines point texts) before units lines lost
        after ↔
      units = 0 ∧ lines = texts ∧ lost = none ∧ after = before := by
  have printed : ∀ text, print point text before =
      call point (.print text) before := by
    intro text
    unfold Interp.print
    rw [direct]
  induction texts generalizing units lines with
  | nil => exact returns_pure
  | cons text rest induction =>
      unfold Returns
      simp only [deliverLines, printed]
      constructor
      · intro undisturbed
        cases undisturbed with
        | @call _ _ reply _ later _ granted continues =>
            cases (granted : reply = .ok ())
            obtain ⟨rfl, rfl, rfl, rfl⟩ := induction.mp continues
            exact ⟨rfl, rfl, rfl, rfl⟩
      · rintro ⟨rfl, rfl, rfl, rfl⟩
        have granted : mainManners.grants (after.runtime.host, .print text)
            (.ok ()) := rfl
        exact .call granted (induction.mpr ⟨rfl, rfl, rfl, rfl⟩)

theorem emitted_deliverLines (buffers : Buffers worker before)
    (returns : Returns (manners worker) (deliverLines point texts) before units
      lines none after) :
    units = 0 ∧ Emitted worker before after lines texts := by
  cases worker with
  | false =>
      have direct : before.runtime.buffer = none :=
        Option.isSome_eq_false_iff.mp buffers |> Option.isNone_iff_eq_none.mp
      obtain ⟨rfl, rfl, _, rfl⟩ := (returns_deliverLines direct).mp returns
      exact ⟨rfl, rfl, rfl⟩
  | true =>
      obtain ⟨buffer, found⟩ := Option.isSome_iff_exists.mp buffers
      obtain ⟨lost, delivered, complete⟩ :=
        deliverLines_buffered point texts found
      unfold Returns at returns
      rw [delivered] at returns
      cases returns
      obtain ⟨_, _, output⟩ := buffer.replay_spec texts
      refine ⟨rfl, rfl, _, rfl, ?_⟩
      rw [output, complete.mp rfl]
      simp [Interpreter.output, found]

omit [Formatting] in
theorem Buffers.none (buffers : Buffers false before) :
    before.runtime.buffer = none := by
  unfold Buffers at buffers
  cases found : before.runtime.buffer with
  | none => rfl
  | some buffer =>
      rw [found] at buffers
      cases buffers

theorem Buffers.deliverLines {lost : Option RuntimeError}
    (buffers : Buffers worker before)
    (returns : Returns (manners worker) (deliverLines point texts) before units
      lines lost after) : Buffers worker after := by
  cases worker with
  | false =>
      obtain ⟨_, _, _, rfl⟩ := (returns_deliverLines buffers.none).mp returns
      exact buffers
  | true =>
      obtain ⟨buffer, found⟩ := Option.isSome_iff_exists.mp buffers
      obtain ⟨_, delivered, _⟩ := deliverLines_buffered point texts found
      unfold Returns at returns
      rw [delivered] at returns
      cases returns
      rfl

omit [Formatting] in
/-- When there is no error after the delivery, every outcome was good. -/
theorem clean_deliver {manners : Manners effects String}
    {first : Option RuntimeError}
    (returns : Returns manners (deliver point outcomes first) before units
      lines none after) :
    first = none ∧ ∀ outcome ∈ outcomes, outcome.error? = none := by
  induction outcomes generalizing first before units lines with
  | nil =>
      obtain ⟨_, _, rfl, _⟩ := returns_pure.mp returns
      exact ⟨rfl, by simp⟩
  | cons outcome rest induction =>
      obtain ⟨_, _, lost, middle, _, _, rfl, rfl, one, two⟩ :=
        returns_bind.mp returns
      obtain ⟨nothing, clean⟩ := induction two
      obtain ⟨earlier, fine⟩ := Option.or_eq_none_iff.mp nothing
      refine ⟨(Option.or_eq_none_iff.mp earlier).1, ?_⟩
      intro other member
      rcases List.mem_cons.mp member with rfl | later
      · exact fine
      · exact clean other later

theorem emitted_deliver {first : Option RuntimeError}
    (buffers : Buffers worker before)
    (returns : Returns (manners worker) (deliver point outcomes first) before
      units lines none after) :
    units = 0 ∧ Emitted worker before after lines
      (outcomes.map Outcome.output).flatten := by
  induction outcomes generalizing first before units lines with
  | nil =>
      obtain ⟨rfl, rfl, rfl, rfl⟩ := returns_pure.mp returns
      exact ⟨rfl, emitted_nil buffers⟩
  | cons outcome rest induction =>
      obtain ⟨_, _, lost, middle, _, _, rfl, rfl, one, two⟩ :=
        returns_bind.mp returns
      obtain ⟨earlier, fine⟩ :=
        Option.or_eq_none_iff.mp (clean_deliver two).1
      obtain ⟨rfl, rfl⟩ := Option.or_eq_none_iff.mp earlier
      obtain ⟨rfl, later⟩ := induction (buffers.deliverLines one) two
      obtain ⟨rfl, now⟩ := emitted_deliverLines buffers one
      exact ⟨rfl, now.trans later⟩

/-- The output of workers that succeeded is printed by the main thread. -/
theorem returns_deliver (direct : before.runtime.buffer = none)
    (outputs : List (List String)) :
    Returns mainManners (deliver point (outputs.map succeeded) none) before 0
      outputs.flatten none before := by
  induction outputs with
  | nil => exact .ret _
  | cons output rest induction =>
      have printed : Returns mainManners (deliverLines point output) before 0
          output none before :=
        (returns_deliverLines direct).mpr ⟨rfl, rfl, rfl, rfl⟩
      exact returns_bind.mpr ⟨0, output, none, before, 0, rest.flatten, rfl,
        rfl, printed, induction⟩

end Delivery

section Batches

variable {before after : Interpreter} {units clock : Nat}
  {lines : List String} {worker : Bool} {point : Point}
  {job : Nat → Value → HostId → Worker} {width : Nat}

omit [Formatting] in
theorem clock_workersOf
    (clocks : ∀ i value host, (job i value host).clock = clock)
    {host : HostId} {forks i : Nat} {values : List Value} :
    ∀ made ∈ workersOf job host forks i values, made.clock = clock := by
  induction values generalizing forks i with
  | nil => simp [workersOf]
  | cons value rest induction =>
      intro made member
      rcases List.mem_cons.mp member with rfl | later
      · exact clocks _ _ _
      · exact induction made later

omit [Formatting] in
/-- The second batch goes on where the first one ended. -/
theorem workersOf_batch (host : HostId) (forks batch : Nat)
    (values : List Value) :
    workersOf job host forks (batch * width) values =
      workersOf job host forks (batch * width) (values.take width) ++
        workersOf job host (forks + (values.take width).length)
          ((batch + 1) * width) (values.drop width) := by
  conv_lhs => rw [← List.take_append_drop width values, workersOf_append]
  congr 1
  rcases Nat.le_total values.length width with short | long
  · rw [List.drop_eq_nil_of_le short]
    rfl
  · rw [List.length_take_of_le long, Nat.add_mul, Nat.one_mul]

omit [Formatting] in
theorem length_batch (width : Nat) (values : List Value) :
    (values.take width).length + (values.drop width).length =
      values.length := by
  rw [← List.length_append, List.take_append_drop]

/-- Batches that are left alone and succeed: so do their workers, and their
output is what is put out. -/
theorem worked_batches (positive : 0 < width)
    (clocks : ∀ i value host, (job i value host).clock = clock)
    {values : List Value} {batch : Nat}
    (inside : before.inParallelWorker = worker)
    (buffers : Buffers worker before)
    (returns : Returns (manners worker)
      (batches (evaluator clock) point job width batch (chunks width values))
      before units lines () after) :
    ∃ outputs spent, Worked (workersOf job before.runtime.host
        before.runtime.forks (batch * width) values) outputs spent ∧
      units = values.length + spent ∧
      Emitted worker (before.advance values.length) after lines
        outputs.flatten := by
  induction shape : values.length using Nat.strong_induction_on
    generalizing values batch before units lines with
  | _ count induction =>
      cases values with
      | nil =>
          cases shape
          obtain ⟨rfl, rfl, _, rfl⟩ := returns_pure.mp returns
          exact ⟨[], 0, .nil, rfl, emitted_nil buffers⟩
      | cons head tail =>
          rw [chunks_cons positive] at returns
          obtain ⟨_, _, jobs, _, _, _, rfl, rfl, prepared, returns⟩ :=
            returns_bind.mp returns
          obtain ⟨ran', _, outcomes, _, _, _, rfl, rfl, ran, returns⟩ :=
            returns_bind.mp returns
          obtain ⟨_, _, first, middle, _, _, rfl, rfl, delivered, returns⟩ :=
            returns_bind.mp returns
          obtain ⟨_, _, _, _, _, _, rfl, rfl, finished, later⟩ :=
            returns_bind.mp returns
          obtain ⟨rfl, rfl, rfl, rfl⟩ := returns_prepare.mp prepared
          cases first with
          | some error => exact (not_returns_stop finished).elim
          | none =>
              obtain ⟨rfl, rfl, _, rfl⟩ := returns_pure.mp finished
              have advanced : (before.advance ((head :: tail).take
                  width).length).inParallelWorker = worker := inside
              obtain ⟨rfl, rfl, worked⟩ := worked_runJobs advanced ran
                (clock_workersOf clocks) (clean_deliver delivered).2
              have buffered : Buffers worker (before.advance
                  ((head :: tail).take width).length) := buffers
              obtain ⟨rfl, emitted⟩ := emitted_deliver buffered delivered
              obtain ⟨host, forks, inside', buffers'⟩ := emitted.same buffered
              have sizes := length_batch width (head :: tail)
              have shorter : ((head :: tail).drop width).length < count := by
                rw [← shape, List.length_drop]
                simp only [List.length_cons]
                omega
              obtain ⟨outputs, spent, worked', rfl, emitted'⟩ :=
                induction _ shorter (inside'.trans advanced) buffers' later rfl
              rw [host, forks] at worked'
              refine ⟨outcomes.map Outcome.output ++ outputs, ran' + spent,
                ?_, ?_, ?_⟩
              · rw [workersOf_batch]
                exact worked.append worked'
              · omega
              · have all := (emitted.advance _).trans emitted'
                rw [Interpreter.advance_advance, sizes, shape] at all
                simpa using all

/-- Workers that succeed when they are left alone do so in batches. -/
theorem Worked.batches (positive : 0 < width) {values : List Value}
    {batch spent : Nat} {outputs : List (List String)}
    (inside : before.inParallelWorker = false)
    (direct : before.runtime.buffer = none)
    (worked : Worked (workersOf job before.runtime.host before.runtime.forks
      (batch * width) values) outputs spent) :
    Returns mainManners
      (batches (evaluator clock) point job width batch (chunks width values))
      before (values.length + spent) outputs.flatten ()
      (before.advance values.length) := by
  induction shape : values.length using Nat.strong_induction_on
    generalizing values batch before outputs spent with
  | _ count induction =>
      cases values with
      | nil =>
          cases shape
          cases worked
          exact .ret _
      | cons head tail =>
          have sizes := length_batch width (head :: tail)
          have shorter : ((head :: tail).drop width).length < count := by
            rw [← shape, List.length_drop]
            simp only [List.length_cons]
            omega
          rw [workersOf_batch] at worked
          obtain ⟨first, second, front, back, rfl, rfl, one, two⟩ :=
            worked.of_append
          rw [chunks_cons positive]
          generalize moved : before.advance
            ((head :: tail).take width).length = middle
          have later : Returns mainManners (NetLang.batches (evaluator clock)
              point job width (batch + 1)
              (chunks width ((head :: tail).drop width))) middle
              (((head :: tail).drop width).length + back) second.flatten ()
              (middle.advance ((head :: tail).drop width).length) := by
            subst moved
            exact induction _ shorter inside direct two rfl
          have prepared : Returns (manners false) (prepare point job
              (batch * width) ((head :: tail).take width)) before _ [] _ _ :=
            returns_prepare.mpr ⟨rfl, rfl, rfl, moved.symm⟩
          rw [← moved, Interpreter.advance_advance, sizes, shape, moved]
            at later
          have outside : middle.inParallelWorker = false := moved ▸ inside
          have unbuffered : middle.runtime.buffer = none := moved ▸ direct
          refine returns_bind.mpr ⟨_, _, _, _, _, _, ?_, ?_, prepared,
            returns_bind.mpr ⟨_, _, _, _, _, _, rfl, rfl,
              one.runJobs outside,
              returns_bind.mpr ⟨_, _, _, _, _, _, rfl, rfl,
                returns_deliver unbuffered first,
                returns_bind.mpr ⟨0, [], (), _, _, _, rfl, rfl, .ret _,
                  later⟩⟩⟩⟩
          · omega
          · simp

/-- Iterations that are left alone and succeed. -/
theorem worked_iterations {env : Environment} {variableName : String}
    {body : Stmt} {values : List Value} (positive : 0 < before.width)
    (inside : before.inParallelWorker = worker)
    (buffers : Buffers worker before)
    (returns : Returns (manners worker)
      (iterations (evaluator clock) point env variableName body values) before
      units lines () after) :
    ∃ outputs spent, Worked (workersOf (fun index value host =>
        ⟨clock, point, variableName, body, before.snapshotAt env,
          before.limits, index, value, host⟩) before.runtime.host
        before.runtime.forks 0 values) outputs spent ∧
      units = values.length + spent ∧
      Emitted worker (before.advance values.length) after lines
        outputs.flatten := by
  have returned : Returns (manners worker) (batches (evaluator clock) point
      (fun index value host => ⟨(evaluator clock).clock, point, variableName,
        body, before.snapshotAt env, before.limits, index, value, host⟩)
      before.width 0 (chunks before.width values)) before units lines ()
      after := returns
  rw [evaluator_clock] at returned
  have clocks : ∀ index value host, (Worker.mk clock point variableName body
      (before.snapshotAt env) before.limits index value host).clock =
        clock := fun _ _ _ => rfl
  have worked := worked_batches positive clocks inside buffers returned
  rwa [Nat.zero_mul] at worked

/-- Workers that succeed make up iterations that succeed, whatever the
width. -/
theorem Worked.iterations {env : Environment} {variableName : String}
    {body : Stmt} {values : List Value} {outputs : List (List String)}
    {spent : Nat} (positive : 0 < before.width)
    (inside : before.inParallelWorker = false)
    (direct : before.runtime.buffer = none)
    (worked : Worked (workersOf (fun index value host =>
        ⟨clock, point, variableName, body, before.snapshotAt env,
          before.limits, index, value, host⟩) before.runtime.host
        before.runtime.forks 0 values) outputs spent) :
    Returns mainManners
      (iterations (evaluator clock) point env variableName body values) before
      (values.length + spent) outputs.flatten ()
      (before.advance values.length) := by
  have returned : Returns mainManners (NetLang.batches (evaluator clock) point
      (fun index value host => ⟨(evaluator clock).clock, point, variableName,
        body, before.snapshotAt env, before.limits, index, value, host⟩)
      before.width 0 (chunks before.width values)) before
      (values.length + spent) outputs.flatten ()
      (before.advance values.length) := by
    rw [evaluator_clock]
    apply Worked.batches positive inside direct
    rwa [Nat.zero_mul]
  exact returned

end Batches

end NetLang
