import NetLang.Semantic.Control
import NetLang.Theory.GuardedStatements

/-!
# Guarded programs

Whole runs keep the invariant, under every host and every choice of threads.
-/

namespace NetLang

open Interp Guard

variable {guard : Guard} {left : Nat}

section Programs

variable [Formatting]

theorem guards_callMain {clock : Nat} (program : Program)
    {env : Environment} {state : Interpreter}
    (fueled : guard.Fueled left clock)
    (inside : env.Inside state.bindings.length) :
    guard.Runs .none (callMain (evaluator clock) program env)
      (fun _ _ _ => True) state left := by
  refine .ite (fun _ => ?_) fun _ => runs_pure fun _ _ => trivial
  split
  · exact absurd rfl inside.nonempty
  · next scope outer =>
      split
      · exact runs_pure fun _ _ => trivial
      · next id found =>
          have bound := inside.slots scope List.mem_cons_self _
            (SortedMap.mem_of_get? found)
          refine (runs_binding bound).bind fun binding _ _ less _ _ held => ?_
          obtain ⟨_, rfl⟩ := held
          split
          · refine (guards_callValue (evaluator_guarded guard clock) ?_ _ _ []
              nofun).mono fun _ _ _ _ _ _ _ => trivial
            rw [evaluator_clock]
            exact fueled.mono less
          · exact runs_pure fun _ _ => trivial

theorem guards_runStatements {clock : Nat} {program : Program}
    (tame : program.Tame) {state : Interpreter}
    (fueled : guard.Fueled left clock)
    (inside : initialEnvironment.Inside state.bindings.length) :
    guard.Runs .none (runStatements (evaluator clock) program)
      (fun _ _ _ => True) state left := by
  have enough : guard.Fueled left ((evaluator clock).clock + 1) := by
    rw [evaluator_clock]
    exact fueled.imp_right Nat.lt_succ_of_lt
  refine (guards_statements (evaluator_guarded guard clock) [] _ enough inside
    (fun node member => (tame node member).1)
    fun _ node member => (tame node member).2).bind
    fun outcome _ _ less _ _ held => ?_
  exact guards_callMain program (fueled.mono less) held.2

omit [Formatting] in
theorem initialState_inv {identity : Nat} {limits : Limits}
    {program : Program} (types : guard.types = .new identity program)
    (batches : guard.batches) :
    guard.Inv (initialState identity limits program) := by
  have bare : ∀ binding ∈ builtinBindings, binding.annotated = none := by
    simp [builtinBindings, Builtin.all]
  refine ⟨types.symm, fun binding member value stored => ?_, nofun,
    fun _ => batches, ⟨fun binding member => ?_, nofun,
      TypeRegistry.annotates_none _⟩⟩
  case refine_2 =>
    rw [bare binding member]
    exact TypeRegistry.annotates_none _
  have atom : ∀ binding ∈ builtinBindings, ∀ value,
      binding.value = some value → value.isStructured = false := by
    simp [builtinBindings, Builtin.all, Value.isStructured]
  refine ⟨Value.known_atom (atom binding member value stored), ?_⟩
  rw [bare binding member]
  exact TypeRegistry.fits_none _ _

omit [Formatting] in
theorem initialEnvironment_inside :
    initialEnvironment.Inside builtinBindings.length :=
  ⟨List.cons_ne_nil _ _, by decide⟩

/-- An execution keeps the invariant within its budget. -/
theorem execution_within {clock identity : Nat} {limits : Limits}
    {program : Program} (tame : program.Tame)
    (types : guard.types = .new identity program) (batches : guard.batches)
    (fueled : guard.Fueled limits.steps clock) :
    (execution clock identity limits program).Within guard.ledger
      (fun outcome _ => guard.Settled outcome.1) limits.steps := by
  have inv : guard.Inv (initialState identity limits program) :=
    initialState_inv types batches
  have runs : guard.Runs .none (runProgram (evaluator clock) program)
      (fun _ _ _ => True) (initialState identity limits program)
      limits.steps := by
    unfold runProgram
    split
    · next node _ =>
        have changes : guard.Runs .none (modify fun state =>
            { state with currentSpan := node.span }) (fun _ _ _ => True)
            (initialState identity limits program) limits.steps :=
          runs_ret rfl (.same rfl rfl)
            (fun inv =>
              ⟨inv.types, inv.values, inv.functions, inv.batches,
                inv.declares⟩)
            fun _ _ _ => trivial
        exact changes.bind fun _ _ _ _ _ _ _ => runs_fail trivial
    · exact guards_runStatements tame fueled initialEnvironment_inside
  exact (runs inv).mono fun _ _ _ held => held.error

theorem workerThread_within {worker : Worker}
    (starts : guard.Starts left worker) :
    (workerThread worker).Within guard.ledger.solo
      (fun done _ => guard.Ends done) left := by
  have alone : Guard.Starts { guard with batches := False } left worker :=
    starts
  have fueled : Guard.Fueled { guard with batches := False } left
      (evaluator worker.clock).clock := by
    rw [evaluator_clock]
    exact starts.fueled
  have runs := guards_executeWorker (evaluator_guarded
    { guard with batches := False } worker.clock) alone fueled
  refine Comp.within_bind (runs.mono ?_)
  rintro ((error | _ | _) | outcome) left' _ held left'' _
  · exact held.elim
  · exact guard.foreign held
  · exact held
  · exact held

/-- The host meets the assumptions about its replies, and panics only if this
is allowed. -/
theorem setup_honors {host : Host effects}
    (answers : ∀ history operation reply, guard.ledger.Kept history →
      guard.ledger.call operation →
      host.answer history operation = some reply →
      guard.ledger.reply operation reply)
    (crashes : ∀ history operation, host.answer history operation = none →
      guard.crashes) :
    (setup host).Honors guard.ledger where
  host := answers
  job := fun _ _ starts => workerThread_within starts
  panicked := fun history operation _ missing =>
    crashes history operation missing
  fewer := fun _ _ starts _ less => starts.mono less

/-- The whole run keeps the invariant. -/
theorem runOf_within {host : Host effects} {clock identity : Nat}
    {limits : Limits} {program : Program} (tame : program.Tame)
    (types : guard.types = .new identity program) (batches : guard.batches)
    (fueled : guard.Fueled limits.steps clock)
    (honors : (setup host).Honors guard.ledger) (choices : List Nat)
    (assumed : (runOf host clock identity limits program
      choices).shared.Assumed guard.ledger) :
    (runOf host clock identity limits program choices).Within guard.ledger
      (fun outcome _ => guard.Settled outcome.1) :=
  Machine.run_within choices honors
    (Machine.start_within (execution_within tame types batches fueled))
    assumed

end Programs

end NetLang
