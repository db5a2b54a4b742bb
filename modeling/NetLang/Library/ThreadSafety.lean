import NetLang.Library.Threads

/-!
# Safety of runs

A computation that is safe under a contract is safe in every run, whatever
the other threads do and whichever choices are made, if the host keeps its
side of the contract.
-/

namespace NetLang

variable {σ : Signature} {α : Type} {contract : Contract σ} {post : α → Prop}

/-- Every answered call was offered and answered as the contract says. -/
def Contract.Kept (contract : Contract σ) (history : History σ) : Prop :=
  ∀ entry ∈ history,
    contract.call entry.1 ∧ contract.reply entry.1 entry.2

/-- A host that replies as the contract assumes, as long as it has been. -/
def Host.Meets (host : Host σ) (contract : Contract σ) : Prop :=
  ∀ history operation reply, contract.Kept history →
    contract.call operation →
    host.answer history operation = some reply →
    contract.reply operation reply

/-- The jobs of a setup meet the contract's assumptions about batches. -/
structure Setup.Meets (setup : Setup σ) (contract : Contract σ) : Prop where
  host : setup.host.Meets contract
  job : ∀ job, contract.job job →
    (setup.job job).Safe contract (contract.done job)
  panicked : ∀ job, contract.job job → contract.done job setup.panicked

structure Shared.Safe (contract : Contract σ) (shared : Shared σ) :
    Prop where
  calls : contract.Kept shared.calls
  notes : ∀ note ∈ shared.notes, contract.note note

/-- A thread of a batch, and the job it was started for. -/
structure ThreadSafe (contract : Contract σ) (job : σ.Job)
    (thread : Comp σ σ.End) : Prop where
  known : contract.job job
  safe : thread.Safe contract (contract.done job)

def Control.Safe (contract : Contract σ) (post : α → Prop) :
    Control σ α → Prop
  | .running main => main.Safe contract post
  | .joining jobs threads refusal next =>
      threads.length ≤ jobs.length ∧
      List.Forall₂ (ThreadSafe contract) (jobs.take threads.length) threads ∧
      (refusal = none ↔ threads.length = jobs.length) ∧
      ∀ reply, Joined contract.done jobs reply →
        (next reply).Safe contract post
  | .crashed => True

structure Machine.Safe (contract : Contract σ) (post : α → Prop)
    (machine : Machine σ α) : Prop where
  shared : machine.shared.Safe contract
  control : machine.control.Safe contract post

theorem startThreads_spec (refuse : Nat → Option σ.Refusal)
    (started waiting : Nat) :
    let reply := startThreads refuse started waiting
    reply.1 ≤ started + waiting ∧
      (reply.2 = none ↔ reply.1 = started + waiting) := by
  induction waiting generalizing started with
  | zero => simp [startThreads]
  | succ waiting induction =>
      unfold startThreads
      cases refused : refuse started with
      | some refusal => simp
      | none =>
          obtain ⟨bound, complete⟩ := induction (started + 1)
          constructor
          · simpa [Nat.add_right_comm, Nat.add_assoc, Nat.add_comm 1] using bound
          · simpa [Nat.add_right_comm, Nat.add_assoc, Nat.add_comm 1]
              using complete

/-- An action that is offered leaves the shared state safe, and its reply is
as assumed. -/
theorem Shared.perform_safe {host : Host σ} {shared after : Shared σ}
    {action : Action σ} {reply : action.Reply}
    (meets : host.Meets contract) (safe : shared.Safe contract)
    (offered : contract.offers action)
    (performed : shared.perform host action = some (after, reply)) :
    after.Safe contract ∧ contract.accepts action reply := by
  cases action with
  | tick =>
      refine ⟨?_, trivial⟩
      simp only [Shared.perform] at performed
      split at performed
      · cases performed
        exact safe
      · cases performed
        exact ⟨safe.calls, safe.notes⟩
  | call operation =>
      simp only [Shared.perform] at performed
      split at performed
      · cases performed
      · next answered =>
          cases performed
          have accepted := meets _ _ _ safe.calls offered answered
          refine ⟨⟨?_, safe.notes⟩, accepted⟩
          intro entry member
          rcases List.mem_cons.mp member with rfl | earlier
          · exact ⟨offered, accepted⟩
          · exact safe.calls entry earlier
  | spawn jobs => cases performed
  | observe note =>
      cases performed
      refine ⟨⟨safe.calls, ?_⟩, trivial⟩
      intro seen member
      rcases List.mem_cons.mp member with rfl | earlier
      · exact offered
      · exact safe.notes seen earlier

theorem stepThread_safe {setup : Setup σ} {shared : Shared σ}
    {job : σ.Job} {thread : Comp σ σ.End} (meets : setup.Meets contract)
    (safe : shared.Safe contract) (threadSafe : ThreadSafe contract job thread) :
    (stepThread setup shared thread).1.Safe contract ∧
      ThreadSafe contract job (stepThread setup shared thread).2 := by
  cases thread with
  | ret value => exact ⟨safe, threadSafe⟩
  | act action next =>
      obtain ⟨known, offered, continues⟩ := threadSafe
      simp only [stepThread]
      split
      · next after reply performed =>
          obtain ⟨afterSafe, accepted⟩ :=
            Shared.perform_safe meets.host safe offered performed
          exact ⟨afterSafe, known, continues reply accepted⟩
      · exact ⟨safe, known, meets.panicked job known⟩

theorem Machine.spawn_safe {setup : Setup σ} {shared : Shared σ}
    {jobs : List σ.Job}
    {next : List σ.End × Option σ.Refusal → Comp σ α}
    (meets : setup.Meets contract) (safe : shared.Safe contract)
    (offered : ∀ job ∈ jobs, contract.job job)
    (continues : ∀ reply, Joined contract.done jobs reply →
      (next reply).Safe contract post) :
    (Machine.spawn setup shared jobs next).Safe contract post := by
  obtain ⟨bound, complete⟩ := startThreads_spec
    (setup.host.refuse shared.calls) 0 jobs.length
  simp only [Nat.zero_add] at bound complete
  refine ⟨safe, ?_⟩
  have length : ((jobs.take (startThreads (setup.host.refuse shared.calls) 0
      jobs.length).1).map setup.job).length =
      (startThreads (setup.host.refuse shared.calls) 0 jobs.length).1 := by
    simp [bound]
  refine ⟨?_, ?_, ?_, continues⟩
  · rw [length]
    exact bound
  · rw [length, List.forall₂_map_right_iff, List.forall₂_same]
    intro job member
    have known := offered job (List.mem_of_mem_take member)
    exact ⟨known, meets.job job known⟩
  · rw [length]
    exact complete

theorem Machine.act_safe {setup : Setup σ} {shared : Shared σ}
    {action : Action σ} {next : action.Reply → Comp σ α}
    (meets : setup.Meets contract) (safe : shared.Safe contract)
    (mainSafe : (Comp.act action next).Safe contract post) :
    (Machine.act setup shared action next).Safe contract post := by
  obtain ⟨offered, continues⟩ := mainSafe
  unfold Machine.act
  split
  · next after reply performed =>
      obtain ⟨afterSafe, accepted⟩ :=
        Shared.perform_safe meets.host safe offered performed
      exact ⟨afterSafe, continues reply accepted⟩
  · exact ⟨safe, trivial⟩

theorem Machine.stepMain_safe {setup : Setup σ} {shared : Shared σ}
    {main : Comp σ α} (meets : setup.Meets contract)
    (safe : shared.Safe contract) (mainSafe : main.Safe contract post) :
    (Machine.stepMain setup shared main).Safe contract post := by
  cases main with
  | ret value => exact ⟨safe, mainSafe⟩
  | act action next =>
      cases action with
      | spawn jobs =>
          exact Machine.spawn_safe meets safe mainSafe.1 mainSafe.2
      | tick => exact Machine.act_safe meets safe mainSafe
      | call operation => exact Machine.act_safe meets safe mainSafe
      | observe note => exact Machine.act_safe meets safe mainSafe

/-- The ends of a batch whose threads have all ended. -/
theorem unfinished_nil {threads : List (Comp σ σ.End)}
    (ended : unfinished threads = []) :
    ∃ ends, threads = ends.map Comp.ret ∧
      threads.filterMap Comp.value? = ends := by
  have all : ∀ thread ∈ threads, ∃ value, thread = Comp.ret value := by
    intro thread member
    obtain ⟨i, bound, rfl⟩ := List.getElem_of_mem member
    have notWaiting := List.filter_eq_nil_iff.mp ended i
      (List.mem_range.mpr bound)
    cases same : threads[i] with
    | ret value => exact ⟨value, rfl⟩
    | act action next =>
        simp [List.getElem?_eq_getElem bound, same, Comp.value?] at notWaiting
  clear ended
  induction threads with
  | nil => exact ⟨[], rfl, rfl⟩
  | cons thread rest induction =>
      obtain ⟨value, rfl⟩ := all thread List.mem_cons_self
      obtain ⟨ends, rfl, collected⟩ := induction fun other member =>
        all other (List.mem_cons_of_mem _ member)
      exact ⟨value :: ends, rfl, by
        simpa [Comp.value?] using collected⟩

theorem waiting_nil {waiting : List Nat} {choice : Nat}
    (missing : waiting[choice % waiting.length]? = none) : waiting = [] := by
  by_contra nonempty
  have positive := List.length_pos_iff.mpr nonempty
  have bound := Nat.mod_lt choice positive
  simp [List.getElem?_eq_getElem bound] at missing

theorem Machine.stepJoining_safe {setup : Setup σ} {choice : Nat}
    {shared : Shared σ} {jobs : List σ.Job}
    {threads : List (Comp σ σ.End)} {refusal : Option σ.Refusal}
    {next : List σ.End × Option σ.Refusal → Comp σ α}
    (meets : setup.Meets contract) (safe : shared.Safe contract)
    (joining : (Control.joining jobs threads refusal next).Safe contract
      post) :
    (Machine.stepJoining setup choice shared jobs threads refusal
      next).Safe contract post := by
  obtain ⟨bound, threadsSafe, complete, continues⟩ := joining
  simp only [Machine.stepJoining]
  split
  · next missing =>
      obtain ⟨ends, rfl, collected⟩ := unfinished_nil (waiting_nil missing)
      refine ⟨safe, continues _ ⟨?_, ?_, ?_⟩⟩
      · simpa only [collected, List.length_map] using bound
      · rw [List.length_map] at threadsSafe
        simp only [collected]
        exact (List.forall₂_map_right_iff.mp threadsSafe).imp
          fun job value ended => ended.safe
      · simpa only [collected, List.length_map] using complete
  · next i chosen =>
      split
      · exact ⟨safe, bound, threadsSafe, complete, continues⟩
      · next thread found =>
          obtain ⟨inside, rfl⟩ := List.getElem?_eq_some_iff.mp found
          have paired := threadsSafe
          rw [List.forall₂_iff_get] at paired
          obtain ⟨sameLength, each⟩ := paired
          have threadSafe := each i (by omega) inside
          obtain ⟨afterSafe, stepped⟩ :=
            stepThread_safe meets safe threadSafe
          refine ⟨afterSafe, ?_, ?_, ?_, continues⟩
          · simpa using bound
          · rw [List.length_set, List.forall₂_iff_get]
            refine ⟨by simpa using sameLength, ?_⟩
            intro j first second
            simp only [List.get_eq_getElem, List.getElem_set]
            split
            · next same =>
                subst same
                exact stepped
            · exact each j first (by simpa using second)
          · simpa using complete

theorem Machine.step_safe {setup : Setup σ} {machine : Machine σ α}
    (choice : Nat) (meets : setup.Meets contract)
    (safe : machine.Safe contract post) :
    (machine.step setup choice).Safe contract post := by
  obtain ⟨shared, control⟩ := machine
  obtain ⟨sharedSafe, controlSafe⟩ := safe
  cases control with
  | running main => exact Machine.stepMain_safe meets sharedSafe controlSafe
  | joining jobs threads refusal next =>
      exact Machine.stepJoining_safe meets sharedSafe controlSafe
  | crashed => exact ⟨sharedSafe, trivial⟩

/-- Every run of a safe machine is safe. -/
theorem Machine.run_safe {setup : Setup σ} (choices : List Nat)
    {machine : Machine σ α} (meets : setup.Meets contract)
    (safe : machine.Safe contract post) :
    (machine.run setup choices).Safe contract post := by
  induction choices generalizing machine with
  | nil => exact safe
  | cons choice rest induction =>
      exact induction (Machine.step_safe choice meets safe)

/-- What a safe computation guarantees of its runs. -/
theorem Machine.start_safe {budget : Nat} {main : Comp σ α}
    (safe : main.Safe contract post) :
    (Machine.start budget main).Safe contract post :=
  ⟨⟨by simp [Contract.Kept, Machine.start], by simp [Machine.start]⟩, safe⟩

theorem Machine.Safe.result {machine : Machine σ α} {value : α}
    (safe : machine.Safe contract post)
    (finished : machine.result? = some value) : post value := by
  obtain ⟨shared, control⟩ := machine
  cases control with
  | running main =>
      cases main with
      | ret returned =>
          cases finished
          exact safe.control
      | act action next => cases finished
  | joining jobs threads refusal next => cases finished
  | crashed => cases finished

end NetLang
