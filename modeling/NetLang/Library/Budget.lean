import NetLang.Library.ThreadSafety

/-!
# Safety within a budget

Safety of a computation that may be granted a bounded number of units of the
shared budget, and that may rely on what has been observed.
-/

namespace NetLang

variable {σ : Signature} {α β : Type}

/-- Guarantees of a computation about its actions, and its assumptions about
the replies and about what it has observed.  A job starts with a bound on the
units it may be granted. -/
structure Ledger (σ : Signature) where
  call : σ.Call → Prop
  reply : (call : σ.Call) → σ.Reply call → Prop
  batches : Prop
  job : Nat → σ.Job → Prop
  done : σ.Job → σ.End → Prop
  note : σ.Note → Prop
  assume : σ.Note → Prop

/-- A thread of a batch starts no batch of its own. -/
def Ledger.solo (ledger : Ledger σ) : Ledger σ :=
  { ledger with batches := False }

namespace Comp

variable {ledger : Ledger σ}

/-- Safe as long as no more than the given number of units is granted.  A unit
is refused only when none is left. -/
def Within (ledger : Ledger σ) (post : α → Nat → Prop) :
    Nat → Comp σ α → Prop
  | left, .ret value => ∀ left' ≤ left, post value left'
  | left, .act .tick next =>
      (next false).Within ledger post 0 ∧
        ∀ left', left' < left → (next true).Within ledger post left'
  | left, .act (.call operation) next => ledger.call operation ∧
      ∀ reply, ledger.reply operation reply →
        (next reply).Within ledger post left
  | left, .act (.spawn jobs) next =>
      (ledger.batches ∧ ∀ job ∈ jobs, ledger.job left job) ∧
      ∀ reply left', left' ≤ left → Joined ledger.done jobs reply →
        (next reply).Within ledger post left'
  | left, .act (.observe note) next => ledger.note note ∧
      (ledger.assume note → (next ()).Within ledger post left)

theorem Within.mono {post weaker : α → Nat → Prop} {comp : Comp σ α}
    {left : Nat} (within : comp.Within ledger post left)
    (implies : ∀ value left', left' ≤ left → post value left' →
      weaker value left') :
    comp.Within ledger weaker left := by
  induction comp generalizing left with
  | ret value =>
      exact fun left' less => implies value left' less (within left' less)
  | act action next induction =>
      cases action with
      | tick =>
          refine ⟨induction false within.1 ?_, fun left' less =>
            induction true (within.2 left' less) ?_⟩
          · exact fun value left' less =>
              implies value left' (less.trans (Nat.zero_le _))
          · exact fun value left'' less' =>
              implies value left'' (less'.trans less.le)
      | call operation =>
          exact ⟨within.1, fun reply accepted =>
            induction reply (within.2 reply accepted) implies⟩
      | spawn jobs =>
          refine ⟨within.1, fun reply left' less joined =>
            induction reply (within.2 reply left' less joined) ?_⟩
          exact fun value left'' less' =>
            implies value left'' (less'.trans less)
      | observe note =>
          exact ⟨within.1, fun assumed =>
            induction () (within.2 assumed) implies⟩

/-- Others may use up units after the computation has ended. -/
theorem Within.down {post : α → Nat → Prop} {comp : Comp σ α} {left : Nat}
    (within : comp.Within ledger post left) :
    comp.Within ledger (fun value left' => ∀ less ≤ left', post value less)
      left := by
  induction comp generalizing left with
  | ret value =>
      exact fun left' bound less fewer => within less (fewer.trans bound)
  | act action next induction =>
      cases action with
      | tick =>
          exact ⟨induction false within.1, fun left' less =>
            induction true (within.2 left' less)⟩
      | call operation =>
          exact ⟨within.1, fun reply accepted =>
            induction reply (within.2 reply accepted)⟩
      | spawn jobs =>
          exact ⟨within.1, fun reply left' less joined =>
            induction reply (within.2 reply left' less joined)⟩
      | observe note =>
          exact ⟨within.1, fun assumed => induction () (within.2 assumed)⟩

/-- Fewer units may be granted. -/
theorem Within.antitone {post : α → Nat → Prop} {comp : Comp σ α}
    {left less : Nat} (within : comp.Within ledger post left)
    (fewer : less ≤ left)
    (jobs : ∀ job left, ledger.job left job → ∀ less ≤ left,
      ledger.job less job) :
    comp.Within ledger post less := by
  induction comp generalizing left less with
  | ret value => exact fun left' bound => within left' (bound.trans fewer)
  | act action next induction =>
      cases action with
      | tick =>
          exact ⟨within.1, fun left' bound =>
            within.2 left' (bound.trans_le fewer)⟩
      | call operation =>
          exact ⟨within.1, fun reply accepted =>
            induction reply (within.2 reply accepted) fewer⟩
      | spawn batch =>
          exact ⟨⟨within.1.1, fun job member =>
              jobs job left (within.1.2 job member) less fewer⟩,
            fun reply left' bound => within.2 reply left' (bound.trans fewer)⟩
      | observe note =>
          exact ⟨within.1, fun assumed =>
            induction () (within.2 assumed) fewer⟩

theorem within_bind {comp : Comp σ α} {f : α → Comp σ β}
    {post : β → Nat → Prop} {left : Nat}
    (within : comp.Within ledger
      (fun value left' => (f value).Within ledger post left') left) :
    (comp.bind f).Within ledger post left := by
  induction comp generalizing left with
  | ret value => exact within left le_rfl
  | act action next induction =>
      cases action with
      | tick =>
          exact ⟨induction false within.1, fun left' less =>
            induction true (within.2 left' less)⟩
      | call operation =>
          exact ⟨within.1, fun reply accepted =>
            induction reply (within.2 reply accepted)⟩
      | spawn jobs =>
          exact ⟨within.1, fun reply left' less joined =>
            induction reply (within.2 reply left' less joined)⟩
      | observe note =>
          exact ⟨within.1, fun assumed => induction () (within.2 assumed)⟩

end Comp

section Runs

variable {ledger : Ledger σ} {post : α → Nat → Prop}

/-- Every answered call was offered and answered as the ledger says. -/
def Ledger.Kept (ledger : Ledger σ) (history : History σ) : Prop :=
  ∀ entry ∈ history, ledger.call entry.1 ∧ ledger.reply entry.1 entry.2

/-- The host and the jobs of a setup meet the assumptions of a ledger. -/
structure Setup.Honors (setup : Setup σ) (ledger : Ledger σ) : Prop where
  host : ∀ history operation reply, ledger.Kept history →
    ledger.call operation → setup.host.answer history operation = some reply →
    ledger.reply operation reply
  job : ∀ job left, ledger.job left job →
    (setup.job job).Within ledger.solo (fun done _ => ledger.done job done)
      left
  panicked : ∀ history operation job,
    setup.host.answer history operation = none →
      ledger.done job setup.panicked
  fewer : ∀ job left, ledger.job left job → ∀ less ≤ left,
    ledger.job less job

structure Shared.Keeps (ledger : Ledger σ) (shared : Shared σ) : Prop where
  calls : ledger.Kept shared.calls
  notes : ∀ note ∈ shared.notes, ledger.note note

/-- A thread of a batch, and the job it was started for. -/
structure ThreadWithin (ledger : Ledger σ) (left : Nat) (job : σ.Job)
    (thread : Comp σ σ.End) : Prop where
  known : ledger.job left job
  safe : thread.Within ledger.solo (fun done _ => ledger.done job done) left

def Control.Within (ledger : Ledger σ) (post : α → Nat → Prop)
    (left : Nat) : Control σ α → Prop
  | .running main => main.Within ledger post left
  | .joining jobs threads refusal next =>
      threads.length ≤ jobs.length ∧
      List.Forall₂ (ThreadWithin ledger left) (jobs.take threads.length)
        threads ∧
      (refusal = none ↔ threads.length = jobs.length) ∧
      ∀ reply left', left' ≤ left → Joined ledger.done jobs reply →
        (next reply).Within ledger post left'
  | .crashed => True

/-- All threads are safe within what is left of the shared budget. -/
structure Machine.Within (ledger : Ledger σ) (post : α → Nat → Prop)
    (machine : Machine σ α) : Prop where
  shared : machine.shared.Keeps ledger
  control : machine.control.Within ledger post machine.shared.budget

/-- What was observed was as assumed. -/
def Shared.Assumed (ledger : Ledger σ) (shared : Shared σ) : Prop :=
  ∀ note ∈ shared.notes, ledger.assume note

/-- An action that is not a batch leads to safety within the new budget. -/
theorem Shared.perform_within {setup : Setup σ} {shared after : Shared σ}
    {action : Action σ} {reply : action.Reply} {batches : Prop}
    {next : action.Reply → Comp σ α} (honors : setup.Honors ledger)
    (keeps : shared.Keeps ledger)
    (within : (Comp.act action next).Within
      { ledger with batches := batches } post shared.budget)
    (performed : shared.perform setup.host action = some (after, reply))
    (assumed : after.Assumed ledger) :
    after.Keeps ledger ∧ after.budget ≤ shared.budget ∧
      (next reply).Within { ledger with batches := batches } post
        after.budget := by
  cases action with
  | tick =>
      simp only [Shared.perform] at performed
      split at performed
      case isTrue empty =>
        cases performed
        refine ⟨keeps, le_rfl, ?_⟩
        rw [empty]
        exact within.1
      case isFalse some =>
        cases performed
        refine ⟨⟨keeps.calls, keeps.notes⟩, Nat.sub_le _ _, ?_⟩
        exact within.2 _ (Nat.sub_lt (Nat.pos_of_ne_zero some) Nat.one_pos)
  | call operation =>
      simp only [Shared.perform] at performed
      split at performed
      · cases performed
      · next answered =>
          cases performed
          have accepted := honors.host _ _ _ keeps.calls within.1 answered
          refine ⟨⟨?_, keeps.notes⟩, le_rfl, within.2 _ accepted⟩
          intro entry member
          rcases List.mem_cons.mp member with rfl | earlier
          · exact ⟨within.1, accepted⟩
          · exact keeps.calls entry earlier
  | spawn jobs => cases performed
  | observe note =>
      cases performed
      refine ⟨⟨keeps.calls, ?_⟩, le_rfl,
        within.2 (assumed note List.mem_cons_self)⟩
      intro seen member
      rcases List.mem_cons.mp member with rfl | earlier
      · exact within.1
      · exact keeps.notes seen earlier

/-- Only a host that panics stops an action that is not a batch. -/
theorem Shared.perform_none {host : Host σ} {shared : Shared σ}
    {action : Action σ} (missing : shared.perform host action = none)
    (single : ∀ jobs, action ≠ .spawn jobs) :
    ∃ history operation, host.answer history operation = none := by
  cases action with
  | tick =>
      simp only [Shared.perform] at missing
      split at missing <;> cases missing
  | call operation =>
      refine ⟨shared.calls, operation, ?_⟩
      simp only [Shared.perform] at missing
      split at missing
      · assumption
      · cases missing
  | spawn jobs => exact absurd rfl (single jobs)
  | observe note => cases missing

/-- Observations are only added. -/
theorem Shared.perform_notes {host : Host σ} {shared after : Shared σ}
    {action : Action σ} {reply : action.Reply}
    (performed : shared.perform host action = some (after, reply)) :
    shared.notes ⊆ after.notes := by
  cases action with
  | tick =>
      simp only [Shared.perform] at performed
      split at performed <;> cases performed <;> exact List.Subset.refl _
  | call operation =>
      simp only [Shared.perform] at performed
      split at performed
      · cases performed
      · cases performed
        exact List.Subset.refl _
  | spawn jobs => cases performed
  | observe note =>
      cases performed
      exact List.subset_cons_self _ _

theorem stepThread_notes (setup : Setup σ) (shared : Shared σ)
    (thread : Comp σ σ.End) :
    shared.notes ⊆ (stepThread setup shared thread).1.notes := by
  cases thread with
  | ret value => exact List.Subset.refl _
  | act action next =>
      simp only [stepThread]
      split
      · next performed => exact Shared.perform_notes performed
      · exact List.Subset.refl _

theorem Machine.step_notes (setup : Setup σ) (choice : Nat)
    (machine : Machine σ α) :
    machine.shared.notes ⊆ (machine.step setup choice).shared.notes := by
  obtain ⟨shared, control⟩ := machine
  cases control with
  | running main =>
      cases main with
      | ret value => exact List.Subset.refl _
      | act action next =>
          have acts : shared.notes ⊆
              (Machine.act setup shared action next).shared.notes := by
            unfold Machine.act
            split
            · next performed => exact Shared.perform_notes performed
            · exact List.Subset.refl _
          cases action with
          | spawn jobs => exact List.Subset.refl _
          | tick => exact acts
          | call operation => exact acts
          | observe note => exact acts
  | joining jobs threads refusal next =>
      simp only [Machine.step, Machine.stepJoining]
      split
      · exact List.Subset.refl _
      · split
        · exact List.Subset.refl _
        · exact stepThread_notes setup shared _
  | crashed => exact List.Subset.refl _

theorem Machine.run_notes (setup : Setup σ) (choices : List Nat)
    (machine : Machine σ α) :
    machine.shared.notes ⊆ (machine.run setup choices).shared.notes := by
  induction choices generalizing machine with
  | nil => exact List.Subset.refl _
  | cons choice rest induction =>
      exact List.Subset.trans (Machine.step_notes setup choice machine)
        (induction (machine.step setup choice))

theorem stepThread_within {setup : Setup σ} {shared : Shared σ}
    {job : σ.Job} {thread : Comp σ σ.End} (honors : setup.Honors ledger)
    (keeps : shared.Keeps ledger)
    (within : ThreadWithin ledger shared.budget job thread)
    (assumed : (stepThread setup shared thread).1.Assumed ledger) :
    (stepThread setup shared thread).1.Keeps ledger ∧
      (stepThread setup shared thread).1.budget ≤ shared.budget ∧
      ThreadWithin ledger (stepThread setup shared thread).1.budget job
        (stepThread setup shared thread).2 := by
  cases thread with
  | ret value => exact ⟨keeps, le_rfl, within⟩
  | act action next =>
      obtain ⟨known, safe⟩ := within
      simp only [stepThread] at assumed ⊢
      split at assumed
      · next after reply performed =>
          obtain ⟨keeps', less, rest⟩ :=
            Shared.perform_within honors keeps safe performed assumed
          exact ⟨keeps', less, honors.fewer _ _ known _ less, rest⟩
      · next missing =>
          refine ⟨keeps, le_rfl, known, fun _ _ => ?_⟩
          obtain ⟨history, operation, unanswered⟩ :=
            Shared.perform_none missing fun jobs same => by
              subst same
              exact safe.1.1
          exact honors.panicked history operation job unanswered

theorem Machine.spawn_within {setup : Setup σ} {shared : Shared σ}
    {jobs : List σ.Job}
    {next : List σ.End × Option σ.Refusal → Comp σ α}
    (honors : setup.Honors ledger) (keeps : shared.Keeps ledger)
    (within : (Comp.act (.spawn jobs) next).Within ledger post
      shared.budget) :
    (Machine.spawn setup shared jobs next).Within ledger post := by
  obtain ⟨bound, complete⟩ := startThreads_spec
    (setup.host.refuse shared.calls) 0 jobs.length
  simp only [Nat.zero_add] at bound complete
  refine ⟨keeps, ?_⟩
  have length : ((jobs.take (startThreads (setup.host.refuse shared.calls) 0
      jobs.length).1).map setup.job).length =
      (startThreads (setup.host.refuse shared.calls) 0 jobs.length).1 := by
    simp [bound]
  refine ⟨?_, ?_, ?_, within.2⟩
  · rw [length]
    exact bound
  · rw [length, List.forall₂_map_right_iff, List.forall₂_same]
    intro job member
    have known := within.1.2 job (List.mem_of_mem_take member)
    exact ⟨known, honors.job job _ known⟩
  · rw [length]
    exact complete

theorem Machine.act_within {setup : Setup σ} {shared : Shared σ}
    {action : Action σ} {next : action.Reply → Comp σ α}
    (honors : setup.Honors ledger) (keeps : shared.Keeps ledger)
    (within : (Comp.act action next).Within ledger post shared.budget)
    (assumed : (Machine.act setup shared action next).shared.Assumed
      ledger) :
    (Machine.act setup shared action next).Within ledger post := by
  unfold Machine.act at assumed ⊢
  split at assumed
  · next after reply performed =>
      obtain ⟨keeps', _, rest⟩ :=
        Shared.perform_within honors keeps within performed assumed
      exact ⟨keeps', rest⟩
  · exact ⟨keeps, trivial⟩

theorem Machine.stepJoining_within {setup : Setup σ} {choice : Nat}
    {shared : Shared σ} {jobs : List σ.Job}
    {threads : List (Comp σ σ.End)} {refusal : Option σ.Refusal}
    {next : List σ.End × Option σ.Refusal → Comp σ α}
    (honors : setup.Honors ledger) (keeps : shared.Keeps ledger)
    (joining : (Control.joining jobs threads refusal next).Within ledger
      post shared.budget)
    (assumed : (Machine.stepJoining setup choice shared jobs threads refusal
      next).shared.Assumed ledger) :
    (Machine.stepJoining setup choice shared jobs threads refusal
      next).Within ledger post := by
  obtain ⟨bound, threadsSafe, complete, continues⟩ := joining
  simp only [Machine.stepJoining] at assumed ⊢
  split
  · next missing =>
      obtain ⟨ends, rfl, collected⟩ := unfinished_nil (waiting_nil missing)
      refine ⟨keeps, continues _ _ le_rfl ⟨?_, ?_, ?_⟩⟩
      · simpa only [collected, List.length_map] using bound
      · rw [List.length_map] at threadsSafe
        simp only [collected]
        exact (List.forall₂_map_right_iff.mp threadsSafe).imp
          fun job value ended => ended.safe 0 (Nat.zero_le _)
      · simpa only [collected, List.length_map] using complete
  · next i chosen =>
      simp only [chosen] at assumed
      split
      · exact ⟨keeps, bound, threadsSafe, complete, continues⟩
      · next thread found =>
          simp only [found] at assumed
          obtain ⟨inside, rfl⟩ := List.getElem?_eq_some_iff.mp found
          have paired := threadsSafe
          rw [List.forall₂_iff_get] at paired
          obtain ⟨sameLength, each⟩ := paired
          have threadSafe := each i (by omega) inside
          obtain ⟨keeps', less, stepped⟩ :=
            stepThread_within honors keeps threadSafe assumed
          refine ⟨keeps', ?_, ?_, ?_, fun reply left' bound =>
            continues reply left' (bound.trans less)⟩
          · simpa using bound
          · rw [List.length_set, List.forall₂_iff_get]
            refine ⟨by simpa using sameLength, ?_⟩
            intro j first second
            simp only [List.get_eq_getElem, List.getElem_set]
            split
            · next same =>
                subst same
                exact stepped
            · have other := each j first (by simpa using second)
              exact ⟨honors.fewer _ _ other.known _ less,
                other.safe.antitone less honors.fewer⟩
          · simpa using complete

theorem Machine.step_within {setup : Setup σ} {machine : Machine σ α}
    (choice : Nat) (honors : setup.Honors ledger)
    (within : machine.Within ledger post)
    (assumed : (machine.step setup choice).shared.Assumed ledger) :
    (machine.step setup choice).Within ledger post := by
  obtain ⟨shared, control⟩ := machine
  obtain ⟨keeps, controlled⟩ := within
  cases control with
  | running main =>
      cases main with
      | ret value => exact ⟨keeps, controlled⟩
      | act action next =>
          cases action with
          | spawn jobs => exact Machine.spawn_within honors keeps controlled
          | tick => exact Machine.act_within honors keeps controlled assumed
          | call operation =>
              exact Machine.act_within honors keeps controlled assumed
          | observe note =>
              exact Machine.act_within honors keeps controlled assumed
  | joining jobs threads refusal next =>
      exact Machine.stepJoining_within honors keeps controlled assumed
  | crashed => exact ⟨keeps, trivial⟩

/-- A run in which everything observed is as assumed stays safe. -/
theorem Machine.run_within {setup : Setup σ} (choices : List Nat)
    {machine : Machine σ α} (honors : setup.Honors ledger)
    (within : machine.Within ledger post)
    (assumed : (machine.run setup choices).shared.Assumed ledger) :
    (machine.run setup choices).Within ledger post := by
  induction choices generalizing machine with
  | nil => exact within
  | cons choice rest induction =>
      refine induction (Machine.step_within choice honors within ?_) assumed
      intro note member
      exact assumed note (Machine.run_notes setup rest _ member)

theorem Machine.start_within {budget : Nat} {main : Comp σ α}
    (within : main.Within ledger post budget) :
    (Machine.start budget main).Within ledger post :=
  ⟨⟨by simp [Ledger.Kept, Machine.start], by simp [Machine.start]⟩, within⟩

theorem Machine.Within.result {machine : Machine σ α} {value : α}
    (within : machine.Within ledger post)
    (finished : machine.result? = some value) :
    post value machine.shared.budget := by
  obtain ⟨shared, control⟩ := machine
  cases control with
  | running main =>
      cases main with
      | ret returned =>
          cases finished
          exact within.control _ le_rfl
      | act action next => cases finished
  | joining jobs threads refusal next => cases finished
  | crashed => cases finished

/-- The main thread does not crash if the host answers every call. -/
theorem Machine.step_running {setup : Setup σ} {machine : Machine σ α}
    (choice : Nat)
    (answers : ∀ history operation, setup.host.answer history operation ≠ none)
    (running : machine.control ≠ .crashed) :
    (machine.step setup choice).control ≠ .crashed := by
  obtain ⟨shared, control⟩ := machine
  cases control with
  | running main =>
      cases main with
      | ret value =>
          intro crashed
          cases crashed
      | act action next =>
          have acts : (∀ jobs, action ≠ .spawn jobs) →
              (Machine.act setup shared action next).control ≠ .crashed := by
            intro single
            unfold Machine.act
            split
            · intro crashed
              cases crashed
            · next missing =>
                obtain ⟨history, operation, unanswered⟩ :=
                  Shared.perform_none missing single
                exact absurd unanswered (answers history operation)
          cases action with
          | spawn jobs =>
              intro crashed
              cases crashed
          | tick => exact acts (by simp)
          | call operation => exact acts (by simp)
          | observe note => exact acts (by simp)
  | joining jobs threads refusal next =>
      simp only [Machine.step, Machine.stepJoining]
      split
      · intro crashed
        cases crashed
      · split <;> intro crashed <;> cases crashed
  | crashed => exact absurd rfl running

theorem Machine.run_running {setup : Setup σ} (choices : List Nat)
    {machine : Machine σ α}
    (answers : ∀ history operation, setup.host.answer history operation ≠ none)
    (running : machine.control ≠ .crashed) :
    (machine.run setup choices).control ≠ .crashed := by
  induction choices generalizing machine with
  | nil => exact running
  | cons choice rest induction =>
      exact induction (Machine.step_running choice answers running)

end Runs

end NetLang
