import NetLang.Library.Simulation
import NetLang.Library.ThreadSafety

/-!
# Computations in step

Two computations are in step when they perform corresponding actions as long
as they get corresponding replies.  Then their runs are in step as well, for
the same choices and for hosts that reply alike.
-/

namespace NetLang

variable {σ : Signature} {α β γ δ : Type}

/-- Which calls, replies, jobs and ends correspond, and which ends of a job
leave its batch with no good outcome. -/
structure Mirror (σ : Signature) where
  strict : Prop
  calls : σ.Call → σ.Call → Prop
  replies : (call call' : σ.Call) → σ.Reply call → σ.Reply call' → Prop
  jobs : σ.Job → σ.Job → Prop
  ends : σ.End → σ.End → Prop
  failed : σ.End → Prop

/-- A batch is over for good when one of its jobs has failed. -/
def Hopeless (failed : σ.End → Prop) (bad : α → Prop) (jobs : List σ.Job)
    (next : List σ.End × Option σ.Refusal → Comp σ α) : Prop :=
  ∀ ends refusal, ends.length ≤ jobs.length → (∃ value ∈ ends, failed value) →
    (next (ends, refusal)).Doomed bad

inductive Lockstep (mirror : Mirror σ) (bad : α → Prop)
    (post : α → β → Prop) : Comp σ α → Comp σ β → Prop where
  | doomed {left : Comp σ α} {right : Comp σ β} :
      left.Doomed bad → Lockstep mirror bad post left right
  | ret {a : α} {b : β} : post a b →
      Lockstep mirror bad post (.ret a) (.ret b)
  | tick {next : Bool → Comp σ α} {next' : Bool → Comp σ β} :
      (∀ granted, Lockstep mirror bad post (next granted) (next' granted)) →
      (mirror.strict → (next false).Doomed bad) →
      Lockstep mirror bad post (.act .tick next) (.act .tick next')
  | call {operation operation' : σ.Call}
      {next : σ.Reply operation → Comp σ α}
      {next' : σ.Reply operation' → Comp σ β} :
      mirror.calls operation operation' →
      (∀ reply reply', mirror.replies operation operation' reply reply' →
        Lockstep mirror bad post (next reply) (next' reply')) →
      Lockstep mirror bad post (.act (.call operation) next)
        (.act (.call operation') next')
  | spawn {jobs jobs' : List σ.Job}
      {next : List σ.End × Option σ.Refusal → Comp σ α}
      {next' : List σ.End × Option σ.Refusal → Comp σ β} :
      List.Forall₂ mirror.jobs jobs jobs' →
      (∀ ends ends' refusal, List.Forall₂ mirror.ends ends ends' →
        Lockstep mirror bad post (next (ends, refusal))
          (next' (ends', refusal))) →
      Hopeless mirror.failed bad jobs next →
      Lockstep mirror bad post (.act (.spawn jobs) next)
        (.act (.spawn jobs') next')
  | observe {note note' : σ.Note} {next : Unit → Comp σ α}
      {next' : Unit → Comp σ β} :
      Lockstep mirror bad post (next ()) (next' ()) →
      Lockstep mirror bad post (.act (.observe note) next)
        (.act (.observe note') next')

namespace Lockstep

variable {mirror : Mirror σ} {bad : α → Prop} {post : α → β → Prop}
  {left : Comp σ α} {right : Comp σ β}

theorem bind {worse : γ → Prop} {after : γ → δ → Prop} {f : α → Comp σ γ}
    {g : β → Comp σ δ} (lockstep : Lockstep mirror bad post left right)
    (dooms : ∀ a, bad a → (f a).Doomed worse)
    (next : ∀ a b, post a b → Lockstep mirror worse after (f a) (g b)) :
    Lockstep mirror worse after (left.bind f) (right.bind g) := by
  induction lockstep with
  | doomed fails => exact .doomed (fails.bind dooms)
  | ret holds => exact next _ _ holds
  | tick _ denied induction =>
      exact .tick induction fun strict => (denied strict).bind dooms
  | call related _ induction => exact .call related induction
  | spawn related _ hopeless induction =>
      exact .spawn related induction fun ends refusal short failed =>
        (hopeless ends refusal short failed).bind dooms
  | observe _ induction => exact .observe induction

theorem mono {weaker : α → β → Prop}
    (lockstep : Lockstep mirror bad post left right)
    (implies : ∀ a b, post a b → weaker a b) :
    Lockstep mirror bad weaker left right := by
  rw [← Comp.bind_ret left, ← Comp.bind_ret right]
  exact lockstep.bind (fun _ isBad => isBad) fun a b holds =>
    .ret (implies a b holds)

end Lockstep

/-- Being in step is a simulation without any output of its own. -/
def Mirror.simulation (mirror : Mirror σ) (Line : Type) :
    Simulation σ Line where
  strict := mirror.strict
  calls := mirror.calls
  replies := mirror.replies
  Holds bad post left right :=
    Lockstep mirror bad (fun a b => post ([], a) ([], b)) left right
  doomed := .doomed
  ret := fun holds => .ret holds
  bind lockstep dooms next := lockstep.bind dooms fun a b holds => by
    simpa using next [] a [] b holds
  tick := .tick
  call := .call
  observe := .observe

section Runs

variable {mirror : Mirror σ} {bad : α → Prop} {post : α → β → Prop}

def EntryRel (mirror : Mirror σ)
    (entry entry' : (call : σ.Call) × σ.Reply call) : Prop :=
  mirror.calls entry.1 entry'.1 ∧
    mirror.replies entry.1 entry'.1 entry.2 entry'.2

/-- Histories of corresponding calls with corresponding replies. -/
def HistoryRel (mirror : Mirror σ) : History σ → History σ → Prop :=
  List.Forall₂ (EntryRel mirror)

/-- Hosts that reply alike, after histories that are alike. -/
structure Host.Mirrors (mirror : Mirror σ) (host host' : Host σ) :
    Prop where
  answer : ∀ {history history'}, HistoryRel mirror history history' →
    ∀ {operation operation'}, mirror.calls operation operation' →
    Option.Rel (mirror.replies operation operation')
      (host.answer history operation) (host'.answer history' operation')
  refuse : ∀ {history history'}, HistoryRel mirror history history' →
    host'.refuse history' = host.refuse history

structure Setup.Mirrors (mirror : Mirror σ) (setup setup' : Setup σ) :
    Prop where
  host : setup.host.Mirrors mirror setup'.host
  job : ∀ {job job'}, mirror.jobs job job' →
    Lockstep mirror mirror.failed mirror.ends (setup.job job)
      (setup'.job job')
  ends : mirror.ends setup.panicked setup'.panicked
  panicked : mirror.failed setup.panicked ∨ ∀ value, ¬ mirror.failed value
  replies : ∀ operation : σ.Call, Nonempty (σ.Reply operation)

/-- When nothing is bad, nothing is doomed. -/
theorem Comp.not_doomed (replies : ∀ operation : σ.Call,
    Nonempty (σ.Reply operation)) {bad : α → Prop}
    (never : ∀ value, ¬ bad value) (comp : Comp σ α) : ¬ comp.Doomed bad := by
  induction comp with
  | ret value => exact never value
  | act action next induction =>
      intro doomed
      cases action with
      | tick => exact induction true (doomed true)
      | call operation =>
          obtain ⟨reply⟩ := replies operation
          exact induction reply (doomed reply)
      | spawn jobs => exact induction ([], none) (doomed ([], none))
      | observe note => exact induction () (doomed ())

structure SharedRel (mirror : Mirror σ) (shared shared' : Shared σ) :
    Prop where
  budget : shared'.budget = shared.budget
  calls : HistoryRel mirror shared.calls shared'.calls

def Control.Doomed (mirror : Mirror σ) (bad : α → Prop) :
    Control σ α → Prop
  | .running main => main.Doomed bad
  | .joining jobs threads _ next =>
      threads.length ≤ jobs.length ∧
          (∃ thread ∈ threads, thread.Doomed mirror.failed) ∧
          Hopeless mirror.failed bad jobs next ∨
        ∀ reply, (next reply).Doomed bad
  | .crashed => mirror.strict

def ControlRel (mirror : Mirror σ) (bad : α → Prop) (post : α → β → Prop) :
    Control σ α → Control σ β → Prop
  | .running main, .running main' => Lockstep mirror bad post main main'
  | .joining jobs threads refusal next, .joining _ threads' refusal' next' =>
      refusal' = refusal ∧ threads.length ≤ jobs.length ∧
      List.Forall₂ (Lockstep mirror mirror.failed mirror.ends) threads
        threads' ∧
      (∀ ends ends' refusal, List.Forall₂ mirror.ends ends ends' →
        Lockstep mirror bad post (next (ends, refusal))
          (next' (ends', refusal))) ∧
      Hopeless mirror.failed bad jobs next
  | .crashed, .crashed => True
  | _, _ => False

/-- Both machines are in step, unless the left one can only end badly. -/
def MachineRel (mirror : Mirror σ) (bad : α → Prop) (post : α → β → Prop)
    (machine : Machine σ α) (machine' : Machine σ β) : Prop :=
  machine.control.Doomed mirror bad ∨
    SharedRel mirror machine.shared machine'.shared ∧
      ControlRel mirror bad post machine.control machine'.control

/-- A related call is answered on both sides, or on neither. -/
theorem Shared.perform_call {host host' : Host σ} {shared shared' : Shared σ}
    {operation operation' : σ.Call} (hosts : host.Mirrors mirror host')
    (related : SharedRel mirror shared shared')
    (calls : mirror.calls operation operation') :
    shared.perform host (.call operation) = none ∧
        shared'.perform host' (.call operation') = none ∨
      ∃ after reply after' reply',
        shared.perform host (.call operation) = some (after, reply) ∧
        shared'.perform host' (.call operation') = some (after', reply') ∧
        SharedRel mirror after after' ∧
        mirror.replies operation operation' reply reply' := by
  have answers := hosts.answer related.calls calls
  simp only [Shared.perform]
  cases left : host.answer shared.calls operation with
  | none =>
      cases right : host'.answer shared'.calls operation' with
      | none => exact .inl ⟨rfl, rfl⟩
      | some reply' =>
          rw [left, right] at answers
          cases answers
  | some reply =>
      cases right : host'.answer shared'.calls operation' with
      | none =>
          rw [left, right] at answers
          cases answers
      | some reply' =>
          rw [left, right] at answers
          obtain replies | _ := answers
          exact .inr ⟨_, reply, _, reply', rfl, rfl,
            ⟨related.budget, .cons ⟨calls, replies⟩ related.calls⟩, replies⟩

/-- One turn of corresponding threads. -/
theorem stepThread_lockstep {setup setup' : Setup σ}
    {shared shared' : Shared σ} {thread thread' : Comp σ σ.End}
    (setups : setup.Mirrors mirror setup')
    (related : SharedRel mirror shared shared')
    (lockstep : Lockstep mirror mirror.failed mirror.ends thread thread')
    (alive : ¬ thread.Doomed mirror.failed) :
    SharedRel mirror (stepThread setup shared thread).1
        (stepThread setup' shared' thread').1 ∧
      Lockstep mirror mirror.failed mirror.ends
        (stepThread setup shared thread).2
        (stepThread setup' shared' thread').2 := by
  cases lockstep with
  | doomed fails => exact absurd fails alive
  | ret ended => exact ⟨related, .ret ended⟩
  | tick next denied =>
      simp only [stepThread, Shared.perform, related.budget]
      by_cases empty : shared.budget = 0
      · simp only [if_pos empty]
        exact ⟨related, next false⟩
      · simp only [if_neg empty]
        exact ⟨⟨rfl, related.calls⟩, next true⟩
  | call calls next =>
      simp only [stepThread]
      obtain ⟨missing, missing'⟩ | ⟨after, reply, after', reply', done, done',
        shareds, replies⟩ := Shared.perform_call setups.host related calls
      · rw [missing, missing']
        exact ⟨related, .ret setups.ends⟩
      · rw [done, done']
        exact ⟨shareds, next reply reply' replies⟩
  | spawn jobs next hopeless =>
      exact ⟨related, .ret setups.ends⟩
  | observe next => exact ⟨⟨related.budget, related.calls⟩, next⟩

theorem stepThread_doomed {setup : Setup σ} {shared : Shared σ}
    {thread : Comp σ σ.End} {failed : σ.End → Prop}
    (panicked : failed setup.panicked) (doomed : thread.Doomed failed) :
    (stepThread setup shared thread).2.Doomed failed := by
  cases thread with
  | ret value => exact doomed
  | act action next =>
      simp only [stepThread]
      split
      · exact doomed _
      · exact panicked

/-- A machine that can only end badly stays so. -/
theorem Machine.step_doomed {setup : Setup σ} {machine : Machine σ α}
    (choice : Nat)
    (panics : mirror.failed setup.panicked ∨ ∀ value, ¬ mirror.failed value)
    (replies : ∀ operation : σ.Call, Nonempty (σ.Reply operation))
    (mode : mirror.strict ∨ ∀ a, ¬ bad a)
    (doomed : machine.control.Doomed mirror bad) :
    (machine.step setup choice).control.Doomed mirror bad := by
  obtain ⟨shared, control⟩ := machine
  cases control with
  | running main =>
      cases main with
      | ret value => exact doomed
      | act action next =>
          have performed : ∀ action (next : Action.Reply action → Comp σ α),
              (Comp.act action next).Doomed bad →
              (Machine.act setup shared action next).control.Doomed
                mirror bad := by
            intro action next doomed
            unfold Machine.act
            split
            · exact doomed _
            · exact mode.resolve_right fun never =>
                Comp.not_doomed replies never _ doomed
          cases action with
          | tick => exact performed _ _ doomed
          | call operation => exact performed _ _ doomed
          | observe note => exact performed _ _ doomed
          | spawn jobs => exact .inr doomed
  | joining jobs threads refusal next =>
      simp only [Machine.step, Machine.stepJoining]
      split
      · next missing =>
          obtain ⟨ends, rfl, collected⟩ := unfinished_nil (waiting_nil missing)
          rcases doomed with
            ⟨short, ⟨thread, member, fails⟩, hopeless⟩ | always
          · obtain ⟨value, inEnds, rfl⟩ := List.mem_map.mp member
            rw [List.length_map] at short
            rw [collected]
            exact hopeless ends refusal short ⟨value, inEnds, fails⟩
          · exact always _
      · next i chosen =>
          split
          · exact doomed
          · next thread found =>
              rcases doomed with
                ⟨short, ⟨other, member, fails⟩, hopeless⟩ | always
              · have panicked : mirror.failed setup.panicked :=
                  panics.resolve_right fun never =>
                    Comp.not_doomed replies never other fails
                refine .inl ⟨by simpa using short, ?_, hopeless⟩
                obtain ⟨j, bound, rfl⟩ := List.getElem_of_mem member
                obtain ⟨inside, rfl⟩ := List.getElem?_eq_some_iff.mp found
                by_cases same : i = j
                · subst same
                  exact ⟨_, List.mem_set inside _,
                    stepThread_doomed panicked fails⟩
                · refine ⟨threads[j], ?_, fails⟩
                  rw [List.mem_iff_getElem]
                  exact ⟨j, by simpa using bound,
                    List.getElem_set_ne same _⟩
              · exact .inr always
  | crashed => exact doomed

theorem lockstep_finished {thread thread' : Comp σ σ.End}
    (lockstep : Lockstep mirror mirror.failed mirror.ends thread thread')
    (alive : ¬ thread.Doomed mirror.failed) :
    thread'.value?.isNone = thread.value?.isNone := by
  cases lockstep with
  | doomed fails => exact absurd fails alive
  | ret ended => rfl
  | tick next denied => rfl
  | call calls next => rfl
  | spawn jobs next hopeless => rfl
  | observe next => rfl

theorem unfinished_lockstep {threads threads' : List (Comp σ σ.End)}
    (related : List.Forall₂ (Lockstep mirror mirror.failed mirror.ends)
      threads threads')
    (alive : ∀ thread ∈ threads, ¬ thread.Doomed mirror.failed) :
    unfinished threads' = unfinished threads := by
  unfold unfinished
  rw [related.length_eq]
  apply List.filter_congr
  intro i member
  have bound := List.mem_range.mp member
  have bound' : i < threads.length := by
    rw [related.length_eq]
    exact bound
  rw [List.getElem?_eq_getElem bound, List.getElem?_eq_getElem bound']
  simp only [Option.map_some, Option.getD_some]
  exact lockstep_finished ((List.forall₂_iff_get.mp related).2 i bound' bound)
    (alive _ (List.getElem_mem bound'))

theorem ends_of_lockstep {ends ends' : List σ.End}
    (pairs : List.Forall₂ (Lockstep mirror mirror.failed mirror.ends)
      (ends.map Comp.ret) (ends'.map Comp.ret))
    (alive : ∀ thread ∈ ends.map Comp.ret,
      ¬ Comp.Doomed mirror.failed (thread : Comp σ σ.End)) :
    List.Forall₂ mirror.ends ends ends' := by
  rw [List.forall₂_map_left_iff, List.forall₂_map_right_iff] at pairs
  induction pairs with
  | nil => exact .nil
  | @cons value value' rest rest' head tail induction =>
      refine .cons ?_ (induction fun thread member =>
        alive thread (List.mem_cons_of_mem _ member))
      cases head with
      | doomed fails => exact absurd fails (alive _ List.mem_cons_self)
      | ret ended => exact ended

/-- One step of the main threads. -/
theorem Machine.stepMain_mirrors {setup setup' : Setup σ}
    {shared shared' : Shared σ} {main : Comp σ α} {main' : Comp σ β}
    (setups : setup.Mirrors mirror setup')
    (related : SharedRel mirror shared shared')
    (lockstep : Lockstep mirror bad post main main')
    (alive : ¬ main.Doomed bad) :
    MachineRel mirror bad post (Machine.stepMain setup shared main)
      (Machine.stepMain setup' shared' main') := by
  cases lockstep with
  | doomed fails => exact absurd fails alive
  | ret holds => exact .inr ⟨related, .ret holds⟩
  | tick next denied =>
      simp only [Machine.stepMain, Machine.act, Shared.perform,
        related.budget]
      by_cases empty : shared.budget = 0
      · simp only [if_pos empty]
        exact .inr ⟨related, next false⟩
      · simp only [if_neg empty]
        exact .inr ⟨⟨rfl, related.calls⟩, next true⟩
  | call calls next =>
      simp only [Machine.stepMain, Machine.act]
      obtain ⟨missing, missing'⟩ | ⟨after, reply, after', reply', done, done',
        shareds, replies⟩ := Shared.perform_call setups.host related calls
      · rw [missing, missing']
        exact .inr ⟨related, trivial⟩
      · rw [done, done']
        exact .inr ⟨shareds, next reply reply' replies⟩
  | @spawn jobs jobs' next next' pairs continues hopeless =>
      have started : startThreads (setup'.host.refuse shared'.calls) 0
          jobs'.length =
          startThreads (setup.host.refuse shared.calls) 0 jobs.length := by
        rw [setups.host.refuse related.calls, pairs.length_eq]
      simp only [Machine.stepMain, Machine.spawn, started]
      refine .inr ⟨related, rfl, by simp, ?_, continues, hopeless⟩
      rw [List.forall₂_map_left_iff, List.forall₂_map_right_iff]
      exact (List.forall₂_take _ pairs).imp fun _ _ => setups.job
  | observe next => exact .inr ⟨⟨related.budget, related.calls⟩, next⟩

/-- One step of a batch without a thread that is bound to fail. -/
theorem Machine.stepJoining_mirrors {setup setup' : Setup σ} {choice : Nat}
    {shared shared' : Shared σ} {jobs jobs' : List σ.Job}
    {threads threads' : List (Comp σ σ.End)} {refusal : Option σ.Refusal}
    {next : List σ.End × Option σ.Refusal → Comp σ α}
    {next' : List σ.End × Option σ.Refusal → Comp σ β}
    (setups : setup.Mirrors mirror setup')
    (related : SharedRel mirror shared shared')
    (pairs : List.Forall₂ (Lockstep mirror mirror.failed mirror.ends) threads
      threads')
    (continues : ∀ ends ends' refusal, List.Forall₂ mirror.ends ends ends' →
      Lockstep mirror bad post (next (ends, refusal))
        (next' (ends', refusal)))
    (short : threads.length ≤ jobs.length)
    (hopeless : Hopeless mirror.failed bad jobs next)
    (alive : ∀ thread ∈ threads, ¬ thread.Doomed mirror.failed) :
    MachineRel mirror bad post
      (Machine.stepJoining setup choice shared jobs threads refusal next)
      (Machine.stepJoining setup' choice shared' jobs' threads' refusal
        next') := by
  simp only [Machine.stepJoining, unfinished_lockstep pairs alive]
  cases chosen : (unfinished threads)[choice % (unfinished threads).length]?
    with
  | none =>
      have nothing := waiting_nil chosen
      obtain ⟨ends, rfl, collected⟩ := unfinished_nil nothing
      have nothing' := (unfinished_lockstep pairs alive).trans nothing
      obtain ⟨ends', rfl, collected'⟩ := unfinished_nil nothing'
      simp only [collected, collected']
      exact .inr ⟨related, continues _ _ _ (ends_of_lockstep pairs alive)⟩
  | some i =>
      dsimp only
      cases found : threads[i]? with
      | none =>
          have missing' : threads'[i]? = none := by
            rw [List.getElem?_eq_none_iff] at found ⊢
            rwa [← pairs.length_eq]
          rw [missing']
          exact .inr ⟨related, rfl, short, pairs, continues, hopeless⟩
      | some thread =>
          obtain ⟨inside, rfl⟩ := List.getElem?_eq_some_iff.mp found
          have inside' : i < threads'.length := by
            rwa [← pairs.length_eq]
          rw [List.getElem?_eq_getElem inside']
          have pair := (List.forall₂_iff_get.mp pairs).2 i inside inside'
          obtain ⟨shareds, stepped⟩ := stepThread_lockstep setups related pair
            (alive _ (List.getElem_mem inside))
          refine .inr
            ⟨shareds, rfl, by simpa using short, ?_, continues, hopeless⟩
          rw [List.forall₂_iff_get]
          refine ⟨by simpa using pairs.length_eq, ?_⟩
          intro j first second
          simp only [List.get_eq_getElem, List.getElem_set]
          split
          · exact stepped
          · exact (List.forall₂_iff_get.mp pairs).2 j
              (by simpa using first) (by simpa using second)

/-- One step of the machines keeps them in step. -/
theorem Machine.step_mirrors {setup setup' : Setup σ}
    {machine : Machine σ α} {machine' : Machine σ β} (choice : Nat)
    (setups : setup.Mirrors mirror setup')
    (mode : mirror.strict ∨ ∀ a, ¬ bad a)
    (related : MachineRel mirror bad post machine machine') :
    MachineRel mirror bad post (machine.step setup choice)
      (machine'.step setup' choice) := by
  by_cases doomed : machine.control.Doomed mirror bad
  · exact .inl (Machine.step_doomed choice setups.panicked setups.replies mode
      doomed)
  obtain fails | ⟨shareds, controls⟩ := related
  · exact absurd fails doomed
  obtain ⟨shared, control⟩ := machine
  obtain ⟨shared', control'⟩ := machine'
  cases control with
  | running main =>
      cases control' with
      | running main' =>
          exact Machine.stepMain_mirrors setups shareds controls doomed
      | joining jobs threads refusal next => exact controls.elim
      | crashed => exact controls.elim
  | joining jobs threads refusal next =>
      cases control' with
      | running main' => exact controls.elim
      | joining jobs' threads' refusal' next' =>
          obtain ⟨rfl, short, pairs, continues, hopeless⟩ := controls
          refine Machine.stepJoining_mirrors setups shareds pairs continues
            short hopeless fun thread member fails => ?_
          exact doomed (.inl ⟨short, ⟨thread, member, fails⟩, hopeless⟩)
      | crashed => exact controls.elim
  | crashed =>
      cases control' with
      | running main' => exact controls.elim
      | joining jobs' threads' refusal' next' => exact controls.elim
      | crashed => exact .inr ⟨shareds, trivial⟩

/-- Runs with the same choices stay in step. -/
theorem Machine.run_mirrors {setup setup' : Setup σ}
    {machine : Machine σ α} {machine' : Machine σ β}
    (setups : setup.Mirrors mirror setup')
    (mode : mirror.strict ∨ ∀ a, ¬ bad a) (choices : List Nat)
    (related : MachineRel mirror bad post machine machine') :
    MachineRel mirror bad post (machine.run setup choices)
      (machine'.run setup' choices) := by
  induction choices generalizing machine machine' with
  | nil => exact related
  | cons choice rest induction =>
      exact induction (Machine.step_mirrors choice setups mode related)

/-- What a run that ended well says about the run in step with it. -/
theorem MachineRel.result {machine : Machine σ α} {machine' : Machine σ β}
    {a : α} (related : MachineRel mirror bad post machine machine')
    (finished : machine.result? = some a) (good : ¬ bad a) :
    SharedRel mirror machine.shared machine'.shared ∧
      ∃ b, machine'.result? = some b ∧ post a b := by
  obtain ⟨shared, control⟩ := machine
  obtain ⟨shared', control'⟩ := machine'
  cases control with
  | joining jobs threads refusal next => cases finished
  | crashed => cases finished
  | running main =>
      cases main with
      | act action next => cases finished
      | ret value =>
          cases finished
          obtain fails | ⟨shareds, controls⟩ := related
          · exact absurd fails good
          · cases control' with
            | joining jobs threads refusal next => exact controls.elim
            | crashed => exact controls.elim
            | running main' =>
                have lockstep : Lockstep mirror bad post (.ret a) main' :=
                  controls
                cases lockstep with
                | doomed fails => exact absurd fails good
                | ret holds => exact ⟨shareds, _, rfl, holds⟩

/-- When nothing is bad, the machines always look alike. -/
theorem MachineRel.always {machine : Machine σ α} {machine' : Machine σ β}
    (replies : ∀ operation : σ.Call, Nonempty (σ.Reply operation))
    (lenient : ¬ mirror.strict) (good : ∀ a, ¬ bad a)
    (fine : ∀ value, ¬ mirror.failed value)
    (related : MachineRel mirror bad post machine machine') :
    SharedRel mirror machine.shared machine'.shared ∧
      Option.Rel post machine.result? machine'.result? := by
  obtain ⟨shared, control⟩ := machine
  obtain ⟨shared', control'⟩ := machine'
  obtain fails | ⟨shareds, controls⟩ := related
  · cases control with
    | running main => exact absurd fails (Comp.not_doomed replies good main)
    | joining jobs threads refusal next =>
        rcases fails with ⟨_, ⟨thread, _, fails⟩, _⟩ | always
        · exact absurd fails (Comp.not_doomed replies fine thread)
        · exact absurd (always ([], none))
            (Comp.not_doomed replies good _)
    | crashed => exact absurd fails lenient
  · refine ⟨shareds, ?_⟩
    cases control with
    | running main =>
        cases control' with
        | running main' =>
            have lockstep : Lockstep mirror bad post main main' := controls
            cases lockstep with
            | doomed fails =>
                exact absurd fails (Comp.not_doomed replies good _)
            | ret holds => exact .some holds
            | tick next denied => exact .none
            | call calls next => exact .none
            | spawn jobs next hopeless => exact .none
            | observe next => exact .none
        | joining jobs threads refusal next => exact controls.elim
        | crashed => exact controls.elim
    | joining jobs threads refusal next =>
        cases control' with
        | running main' => exact controls.elim
        | joining jobs' threads' refusal' next' => exact .none
        | crashed => exact controls.elim
    | crashed =>
        cases control' with
        | running main' => exact controls.elim
        | joining jobs' threads' refusal' next' => exact controls.elim
        | crashed => exact .none

end Runs

end NetLang
