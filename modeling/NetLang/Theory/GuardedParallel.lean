import NetLang.Theory.Guarded

/-!
# Guarded parallel statements
-/

namespace NetLang

open Interp Guard

variable {guard : Guard} {self : Evaluator} {env : Environment}
  {state : Interpreter} {left : Nat}

namespace Guard

/-- An outcome without an error, or with one that is allowed. -/
def Fine (guard : Guard) (outcome : Outcome) : Prop :=
  ∀ error, outcome.result = .error error → error.kind.Ordinary guard.crashes

/-- How a worker ends in its thread: its errors are part of its outcome. -/
def Completes (guard : Guard) : Result Outcome → Prop
  | .ok outcome => guard.Fine outcome
  | .error (.error _) => False
  | .error reason => guard.Stops reason

theorem Completes.settled {result : Result Outcome}
    (completes : guard.Completes result) : guard.Settled result := by
  rintro (error | _ | _) rfl
  · exact completes.elim
  · exact completes
  · exact completes

def FineError (guard : Guard) (error : Option RuntimeError) : Prop :=
  ∀ raised, error = some raised → raised.kind.Ordinary guard.crashes

theorem Starts.mono {worker : Worker} {less : Nat}
    (starts : guard.Starts left worker) (fewer : less ≤ left) :
    guard.Starts less worker :=
  { starts with fueled := starts.fueled.mono fewer }

/-- A worker starts no threads, so it may run in any interpreter. -/
theorem Starts.begins {worker : Worker} (starts : guard.Starts left worker) :
    guard.Inv worker.start :=
  ⟨starts.inv.types, starts.inv.values, starts.inv.functions, nofun,
    starts.inv.declares⟩

theorem Fine.ended {outcome : Outcome} (fine : guard.Fine outcome) :
    guard.FineError outcome.error? := by
  intro raised same
  unfold Outcome.error? at same
  split at same
  · cases same
  · next error failed =>
      cases same
      exact fine _ failed

theorem FineError.or {first second : Option RuntimeError}
    (fine : guard.FineError first) (other : guard.FineError second) :
    guard.FineError (first.or second) := by
  cases first with
  | none => exact other
  | some error => exact fine

end Guard

section Workers

variable [Formatting] (guarded : self.Guarded guard)
include guarded

omit [Formatting] in
theorem guards_iterationBody {worker : Worker}
    (starts : guard.Starts left worker)
    (fueled : guard.Fueled left self.clock) :
    guard.Runs .none (iterationBody self worker) (fun _ _ _ => True)
      worker.start left := by
  have known : worker.value.Known guard.records := starts.value
  refine (runs_fresh known (TypeRegistry.fits_none _ _)
    (TypeRegistry.annotates_none _)).bind
    fun id next _ less grows _ bound => ?_
  have inside : Environment.Inside
      ([(worker.variableName, id)] :: worker.snapshot.env)
      next.bindings.length := by
    refine (starts.env.mono grows.longer).push fun entry member => ?_
    rw [List.mem_singleton] at member
    exact member ▸ bound
  refine (guarded.body (fueled.mono less) inside _ _ (List.cons_ne_nil _ _)
    starts.tame).bind fun outcome _ _ _ _ _ leaves => ?_
  obtain ⟨flow, final⟩ := outcome
  have only : ∀ jump, flow.jump? = some jump → jump = .continue :=
    fun jump same => starts.jumps jump (leaves.among jump same)
  cases flow with
  | normal => exact runs_pure fun _ _ => trivial
  | «continue» => exact runs_pure fun _ _ => trivial
  | «break» => cases only .break rfl
  | «return» value => cases only .return rfl

omit [Formatting] in
/-- What a worker leads to, on a thread or in the one that runs it. -/
theorem guards_executeWorker {worker : Worker}
    (starts : guard.Starts left worker)
    (fueled : guard.Fueled left self.clock) :
    (executeWorker self worker).Within guard.ledger (fun result _ =>
      guard.Completes result) left := by
  refine Comp.within_bind
    ((guards_iterationBody guarded starts fueled starts.begins).mono ?_)
  rintro ⟨result, after⟩ left' _ held left'' _
  have settled := held.error
  rcases result with (error | _ | _) | value
  · rintro _ ⟨⟩
    have ordinary := settled _ rfl
    exact ordinary
  · exact settled _ rfl
  · exact settled _ rfl
  · rintro _ ⟨⟩

omit [Formatting] in
theorem guards_runInline (jobs : List Worker)
    (starts : ∀ job ∈ jobs, guard.Starts left job)
    (fueled : guard.Fueled left self.clock) :
    guard.Runs .none (runInline self jobs)
      (fun outcomes _ _ => ∀ outcome ∈ outcomes, guard.Fine outcome)
      state left := by
  induction jobs generalizing state left with
  | nil => exact runs_pure fun _ _ => nofun
  | cons job rest induction =>
      have runs : guard.Runs .none
          (fun state => (executeWorker self job).bind fun result =>
            .ret (result, state))
          (fun outcome after _ => guard.Fine outcome ∧ after = state)
          state left := by
        intro inv
        refine Comp.within_bind ((guards_executeWorker guarded
          (starts job List.mem_cons_self) fueled).mono ?_)
        intro result left' _ held left'' _
        refine ⟨.refl state, inv, ?_, held.settled⟩
        rintro outcome rfl
        exact ⟨held, rfl⟩
      refine runs.bind fun outcome _ left' less _ _ held => ?_
      refine (induction (fun other member =>
        (starts other (List.mem_cons_of_mem _ member)).mono less)
        (fueled.mono less)).bind fun outcomes _ _ _ _ _ fine => ?_
      refine runs_pure fun _ _ other member => ?_
      rcases List.mem_cons.mp member with rfl | later
      · exact held.1
      · exact fine other later

end Workers

section Threads

theorem guards_joinOutcome (point : Point) (job : Worker) (done : WorkerEnd)
    (ends : guard.Ends done) :
    guard.Runs .none (joinOutcome point job done)
      (fun outcome _ _ => guard.Fine outcome) state left := by
  cases done with
  | finished outcome => exact runs_pure fun _ _ => ends
  | panicked =>
      refine runs_ret rfl (.refl state) (fun inv => inv) fun _ _ _ => ?_
      rintro _ ⟨⟩
      exact ends
  | outOfFuel => exact runs_stop ends

theorem guards_joinOutcomes (point : Point) (jobs : List Worker)
    (ends : List WorkerEnd) (fine : ∀ done ∈ ends, guard.Ends done) :
    guard.Runs .none (joinOutcomes point jobs ends)
      (fun outcomes _ _ => ∀ outcome ∈ outcomes, guard.Fine outcome)
      state left := by
  induction jobs generalizing ends state left with
  | nil =>
      unfold joinOutcomes
      exact runs_pure fun _ _ => nofun
  | cons job jobs induction =>
      cases ends with
      | nil => exact runs_pure fun _ _ => nofun
      | cons done ends =>
          refine (guards_joinOutcome point job done
            (fine done List.mem_cons_self)).bind
            fun outcome _ _ _ _ _ held => ?_
          refine (induction ends fun other member =>
            fine other (List.mem_cons_of_mem _ member)).bind
            fun outcomes _ _ _ _ _ rest => ?_
          refine runs_pure fun _ _ other member => ?_
          rcases List.mem_cons.mp member with rfl | later
          · exact held
          · exact rest other later

theorem guards_refusedOutcome (point : Point) (jobs : List Worker)
    (started : Nat) (refusal : Option String) :
    guard.Runs .none (refusedOutcome point jobs started refusal)
      (fun outcomes _ _ => ∀ outcome ∈ outcomes, guard.Fine outcome)
      state left := by
  cases refusal with
  | none => exact runs_pure fun _ _ => nofun
  | some reason =>
      refine runs_ret rfl (.refl state) (fun inv => inv)
        fun _ _ _ outcome member => ?_
      rw [List.mem_singleton] at member
      subst member
      rintro _ ⟨⟩
      trivial

theorem guards_runThreads (point : Point) (jobs : List Worker)
    (batches : guard.batches)
    (starts : ∀ job ∈ jobs, guard.Starts left job) :
    guard.Runs .none (runThreads point jobs)
      (fun outcomes _ _ => ∀ outcome ∈ outcomes, guard.Fine outcome)
      state left := by
  have ended : ∀ (jobs : List Worker) (ends : List WorkerEnd),
      List.Forall₂ (fun _ done => guard.Ends done) jobs ends →
      ∀ done ∈ ends, guard.Ends done := by
    intro jobs ends all
    induction all with
    | nil => exact nofun
    | cons head _ induction =>
        intro done member
        rcases List.mem_cons.mp member with rfl | later
        · exact head
        · exact induction done later
  have spawns : guard.Runs .none (spawn jobs)
      (fun reply _ _ => ∀ done ∈ reply.1, guard.Ends done) state left := by
    refine fun inv => ⟨⟨batches, starts⟩, fun reply left' _ joined => ?_⟩
    refine fun left'' _ => ⟨.refl state, inv, ?_, nofun⟩
    rintro _ ⟨⟩ done member
    exact ended _ _ joined.ends done member
  refine spawns.bind fun reply _ _ _ _ _ ends => ?_
  obtain ⟨done, refusal⟩ := reply
  refine (guards_joinOutcomes point jobs done ends).bind
    fun outcomes _ _ _ _ _ fine => ?_
  refine (guards_refusedOutcome point jobs _ refusal).bind
    fun refused _ _ _ _ _ more => ?_
  refine runs_pure fun _ _ outcome member => ?_
  rcases List.mem_append.mp member with first | last
  · exact fine outcome first
  · exact more outcome last

theorem guards_deliverLines (point : Point) (lines : List String) :
    guard.Runs .none (deliverLines point lines)
      (fun error _ _ => guard.FineError error) state left := by
  induction lines generalizing state left with
  | nil => exact runs_pure fun _ _ => nofun
  | cons line rest induction =>
      have prints : guard.Runs .none (print point line)
          (fun _ after _ => after.bindings = state.bindings) state left :=
        runs_print
      intro inv
      refine Comp.within_bind ((prints inv).mono ?_)
      rintro ⟨result, after⟩ left' _ held
      rcases result with (error | _ | _) | value
      · refine fun left'' _ => ⟨held.grows, held.inv, ?_, nofun⟩
        rintro _ ⟨⟩ _ ⟨⟩
        have ordinary := held.error _ rfl
        exact ordinary
      · refine fun left'' _ => ⟨held.grows, held.inv, nofun, ?_⟩
        rintro _ ⟨⟩
        exact held.error _ rfl
      · refine fun left'' _ => ⟨held.grows, held.inv, nofun, ?_⟩
        rintro _ ⟨⟩
        exact held.error _ rfl
      · refine (induction held.inv).mono ?_
        rintro ⟨result, last⟩ left'' _ done
        refine ⟨?_, done.inv, done.ok, done.error⟩
        cases result with
        | ok value => exact held.grows.trans done.grows
        | error reason => exact held.grows.trans done.grows

theorem guards_deliver (point : Point) (outcomes : List Outcome)
    (first : Option RuntimeError)
    (fine : ∀ outcome ∈ outcomes, guard.Fine outcome)
    (known : guard.FineError first) :
    guard.Runs .none (deliver point outcomes first)
      (fun error _ _ => guard.FineError error) state left := by
  induction outcomes generalizing first state left with
  | nil => exact runs_pure fun _ _ => known
  | cons outcome rest induction =>
      refine (guards_deliverLines point _).bind fun lost _ _ _ _ _ held => ?_
      exact induction _
        (fun other member => fine other (List.mem_cons_of_mem _ member))
        ((known.or held).or (fine outcome List.mem_cons_self).ended)

theorem guards_prepare (point : Point)
    (job : Nat → Value → HostId → Worker) (i : Nat) (values : List Value)
    (starts : ∀ index value host, value ∈ values →
      guard.Starts left (job index value host)) :
    guard.Runs .none (prepare point job i values)
      (fun jobs _ left' => ∀ worker ∈ jobs, guard.Starts left' worker)
      state left := by
  induction values generalizing i state left with
  | nil => exact runs_pure fun _ _ => nofun
  | cons value rest induction =>
      refine runs_step.bind fun _ _ _ less _ _ _ => ?_
      refine runs_fork.bind fun host _ _ fewer _ _ _ => ?_
      refine (induction (i + 1) fun index other host member =>
        ((starts index other host (List.mem_cons_of_mem _ member)).mono
          less).mono fewer).bind fun jobs _ _ more _ _ held => ?_
      refine runs_pure fun left' bound worker member => ?_
      rcases List.mem_cons.mp member with rfl | later
      · exact (starts i value host List.mem_cons_self).mono
          (bound.trans (more.trans (fewer.trans less)))
      · exact (held worker later).mono bound

end Threads

section Batches

variable [Formatting] (guarded : self.Guarded guard)
include guarded

omit [Formatting] in
theorem guards_batches (point : Point)
    (job : Nat → Value → HostId → Worker) (width batch : Nat)
    (values : List (List Value))
    (fueled : guard.Fueled left self.clock)
    (starts : ∀ index value host, (∃ list ∈ values, value ∈ list) →
      guard.Starts left (job index value host)) :
    guard.Runs .none (batches self point job width batch values)
      (fun _ _ _ => True) state left := by
  induction values generalizing batch state left with
  | nil => exact runs_pure fun _ _ => trivial
  | cons values rest induction =>
      refine (guards_prepare point job _ values
        fun index value host member => starts index value host
          ⟨values, List.mem_cons_self, member⟩).bind
        fun jobs next left' less _ inv ready => ?_
      have runs : guard.Runs .none (runJobs self point jobs)
          (fun outcomes _ _ => ∀ outcome ∈ outcomes, guard.Fine outcome)
          next left' := by
        refine runs_get fun _ => ?_
        split
        · exact guards_runInline guarded jobs ready (fueled.mono less)
        · next outside =>
            exact guards_runThreads point jobs
              (inv.batches (by simpa using outside)) ready
      refine runs.bind fun outcomes _ left'' fewer _ _ fine => ?_
      refine (guards_deliver point outcomes none fine nofun).bind
        fun first _ left₃ more _ _ known => ?_
      have finishes : ∀ (state : Interpreter) (left : Nat),
          guard.Runs .none (finishBatch first) (fun _ _ _ => True) state
            left := by
        intro state left
        cases first with
        | none => exact runs_pure fun _ _ => trivial
        | some error => exact runs_stop (known error rfl)
      refine (finishes _ _).bind fun _ _ left₄ last _ _ _ => ?_
      have bound := last.trans (more.trans (fewer.trans less))
      refine induction _ (fueled.mono bound) fun index value host member => ?_
      obtain ⟨list, inside, found⟩ := member
      exact (starts index value host
        ⟨list, List.mem_cons_of_mem _ inside, found⟩).mono bound

omit [Formatting] in
theorem guards_parallel [Formatting] (point : Point)
    (variableName : String) (iterable : Expr) (body : Stmt)
    (fueled : guard.Fueled left self.clock)
    (inside : env.Inside state.bindings.length)
    (tame : body.Tame) (jumps : ∀ jump ∈ body.jumps, jump = .continue) :
    guard.Runs .none (parallel self point env variableName iterable body)
      (fun _ _ _ => True) state left := by
  refine (guarded.expression fueled inside _ _).bind
    fun value next left' less grows inv held => ?_
  split
  · exact runs_pure fun _ _ => trivial
  · next values _ =>
      have known := Value.known_array.mp held.1
      have runs : guard.Runs .none
          (iterations self point env variableName body values)
          (fun _ _ _ => True) next left' := by
        refine runs_get fun _ => ?_
        refine guards_batches guarded point _ _ _ _ (fueled.mono less) ?_
        intro index value host member
        have found : value ∈ values := by
          obtain ⟨list, inside, member⟩ := member
          exact mem_of_mem_chunks inside member
        have declares : guard.types.Declares next.bindings next.functions
            none :=
          ⟨inv.declares.bindings, inv.declares.functions,
            TypeRegistry.annotates_none _⟩
        exact ⟨⟨inv.types, inv.values, inv.functions, nofun, declares⟩,
          inside.keep grows, known value found, tame, jumps,
          fueled.mono less⟩
      refine runs_reported runs (fun result _ _ _ ends => ⟨ends.error, ?_⟩)
        fun _ _ _ inv ends => ⟨inv.stores, ends.inv.stores⟩
      cases result with
      | ok value => exact ends.grows
      | error reason => exact ends.grows
  · exact runs_fail trivial

end Batches

end NetLang
