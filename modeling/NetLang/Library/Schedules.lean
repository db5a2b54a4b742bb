import NetLang.Library.Descent
import NetLang.Library.ThreadSafety
import NetLang.Library.Undisturbed

/-!
# Runs that do not depend on the schedule

A run that ends well is what its computation does when it is left alone, if
the computation is fragile.  And what a computation does when it is left
alone, it does in every run that has the budget for it.
-/

namespace NetLang

variable {σ : Signature} {Line : Type} {α : Type}

/-- Threads that end when each of them is left alone, without showing
anything. -/
inductive AllLeftAlone (manners : Manners σ Line) :
    List (Comp σ σ.End) → List σ.End → Nat → Prop where
  | nil : AllLeftAlone manners [] [] 0
  | cons {thread : Comp σ σ.End} {threads : List (Comp σ σ.End)}
      {done : σ.End} {ends : List σ.End} {units spent : Nat} :
      LeftAlone manners thread units [] done →
      AllLeftAlone manners threads ends spent →
      AllLeftAlone manners (thread :: threads) (done :: ends)
        (units + spent)

/-- Manners of the main thread and of the threads of its batches, when the
host starts every thread. -/
structure Setup.Orderly (setup : Setup σ) (outer inner : Manners σ Line) :
    Prop where
  starts : ∀ history i, setup.host.refuse history i = none
  batch : ∀ {jobs ends spent}, outer.batch jobs ends spent ↔
    AllLeftAlone inner (jobs.map setup.job) ends spent
  grants : ∀ {operation reply}, inner.grants operation reply →
    outer.grants operation reply ∧ outer.shown operation = []
  accepts : ∀ {operation reply}, inner.permits operation →
    outer.grants operation reply → inner.grants operation reply
  shown : ∀ operation, inner.shown operation = []
  serial : ∀ {jobs ends spent}, ¬ inner.batch jobs ends spent
  jobs : ∀ {job}, outer.jobs job →
    (setup.job job).Fragile inner outer.failed
  panicked : outer.failed setup.panicked
  replies : ∀ operation : σ.Call, Nonempty (σ.Reply operation)

/-- Every call was answered as it should be. -/
def Manners.Granted (manners : Manners σ Line) (history : History σ) : Prop :=
  ∀ entry ∈ history, manners.grants entry.1 entry.2

/-- The lines shown so far. -/
def Manners.lines (manners : Manners σ Line) (history : History σ) :
    List Line :=
  history.reverse.flatMap fun entry => manners.shown entry.1

@[simp] theorem Manners.lines_cons (manners : Manners σ Line)
    (entry : (call : σ.Call) × σ.Reply call) (history : History σ) :
    manners.lines (entry :: history) =
      manners.lines history ++ manners.shown entry.1 := by
  simp [Manners.lines]

theorem startThreads_none {refuse : Nat → Option σ.Refusal}
    (starts : ∀ i, refuse i = none) (started waiting : Nat) :
    startThreads refuse started waiting = (started + waiting, none) := by
  induction waiting generalizing started with
  | zero => rfl
  | succ waiting induction =>
      simp only [startThreads, starts, induction]
      congr 1
      omega

section Histories

/-- Histories only grow. -/
theorem Shared.perform_calls {host : Host σ} {shared after : Shared σ}
    {action : Action σ} {reply : action.Reply}
    (performed : shared.perform host action = some (after, reply)) :
    shared.calls <:+ after.calls := by
  unfold Shared.perform at performed
  split at performed
  · split at performed <;> cases performed <;> exact List.suffix_rfl
  · split at performed <;> cases performed
    exact List.suffix_cons _ _
  · cases performed
    exact List.suffix_rfl
  · cases performed

theorem stepThread_calls (setup : Setup σ) (shared : Shared σ)
    (thread : Comp σ σ.End) :
    shared.calls <:+ (stepThread setup shared thread).1.calls := by
  unfold stepThread
  split
  · exact List.suffix_rfl
  · split
    · next performed => exact Shared.perform_calls performed
    · exact List.suffix_rfl

theorem Machine.act_calls (setup : Setup σ) (shared : Shared σ)
    (action : Action σ) (next : action.Reply → Comp σ α) :
    shared.calls <:+ (Machine.act setup shared action next).shared.calls := by
  unfold Machine.act
  split
  · next performed => exact Shared.perform_calls performed
  · exact List.suffix_rfl

theorem Machine.step_calls (setup : Setup σ) (choice : Nat)
    (machine : Machine σ α) :
    machine.shared.calls <:+ (machine.step setup choice).shared.calls := by
  obtain ⟨shared, control⟩ := machine
  cases control with
  | running main =>
      cases main with
      | ret value => exact List.suffix_rfl
      | act action next =>
          cases action with
          | spawn jobs => exact List.suffix_rfl
          | tick => exact Machine.act_calls setup shared _ _
          | call operation => exact Machine.act_calls setup shared _ _
          | observe note => exact Machine.act_calls setup shared _ _
  | joining jobs threads refusal next =>
      simp only [Machine.step, Machine.stepJoining]
      split
      · exact List.suffix_rfl
      · split
        · exact List.suffix_rfl
        · exact stepThread_calls setup shared _
  | crashed => exact List.suffix_rfl

theorem Machine.run_calls (setup : Setup σ) (choices : List Nat)
    (machine : Machine σ α) :
    machine.shared.calls <:+ (machine.run setup choices).shared.calls := by
  induction choices generalizing machine with
  | nil => exact List.suffix_rfl
  | cons choice rest induction =>
      exact (Machine.step_calls setup choice machine).trans (induction _)

/-- A contract about replies alone. -/
def Contract.answers (reply : (call : σ.Call) → σ.Reply call → Prop) :
    Contract σ where
  call _ := True
  reply := reply
  job _ := True
  done _ _ := True
  note _ := True

theorem Comp.safe_answers {reply : (call : σ.Call) → σ.Reply call → Prop}
    (comp : Comp σ α) :
    comp.Safe (Contract.answers reply) fun _ => True := by
  induction comp with
  | ret value => trivial
  | act action next induction =>
      refine ⟨?_, fun reply _ => induction reply⟩
      cases action with
      | spawn jobs => exact fun _ _ => trivial
      | tick => trivial
      | call operation => trivial
      | observe note => trivial

/-- The calls of a run have been answered by the host. -/
theorem Machine.run_answers {setup : Setup σ} {budget : Nat}
    {main : Comp σ α} {reply : (call : σ.Call) → σ.Reply call → Prop}
    (answers : ∀ history operation answer,
      setup.host.answer history operation = some answer →
      reply operation answer) (choices : List Nat) :
    ∀ entry ∈ ((Machine.start budget main).run setup choices).shared.calls,
      reply entry.1 entry.2 := by
  have meets : setup.Meets (Contract.answers reply) :=
    ⟨fun history operation answer _ _ replied =>
        answers history operation answer replied,
      fun _ _ => (Comp.safe_answers _).mono fun _ _ => trivial,
      fun _ _ => trivial⟩
  have safe := Machine.run_safe choices meets
    (Machine.start_safe (main.safe_answers) : (Machine.start budget
      main).Safe (Contract.answers reply) fun _ => True)
  exact fun entry member => (safe.shared.calls entry member).2

theorem Manners.Granted.of_suffix {manners : Manners σ Line}
    {earlier later : History σ} (granted : manners.Granted later)
    (suffix : earlier <:+ later) : manners.Granted earlier :=
  fun entry member => granted entry (suffix.subset member)

end Histories

section Forward

/-- After some units and some lines, this is what is left to do. -/
def Remains (manners : Manners σ Line) (whole comp : Comp σ α) (units : Nat)
    (lines : List Line) : Prop :=
  ∀ more rest value, LeftAlone manners comp more rest value →
    LeftAlone manners whole (units + more) (lines ++ rest) value

variable {setup : Setup σ} {outer inner manners : Manners σ Line}
  {bad : α → Prop} {whole : Comp σ α} {units : Nat} {lines : List Line}

theorem remains_self (manners : Manners σ Line) (comp : Comp σ α) :
    Remains manners comp comp 0 [] := by
  intro more rest value undisturbed
  simpa using undisturbed

theorem Remains.tick {next : Bool → Comp σ α}
    (remains : Remains manners whole (.act .tick next) units lines) :
    Remains manners whole (next true) (units + 1) lines := by
  intro more rest value undisturbed
  rw [Nat.add_assoc, Nat.add_comm 1]
  exact remains _ _ _ (.tick undisturbed)

theorem Remains.call {operation : σ.Call}
    {next : σ.Reply operation → Comp σ α} {reply : σ.Reply operation}
    (remains : Remains manners whole (.act (.call operation) next) units
      lines)
    (granted : manners.grants operation reply) :
    Remains manners whole (next reply) units
      (lines ++ manners.shown operation) := by
  intro more rest value undisturbed
  rw [List.append_assoc]
  exact remains _ _ _ (.call granted undisturbed)

theorem Remains.spawn {jobs : List σ.Job}
    {next : List σ.End × Option σ.Refusal → Comp σ α} {ends : List σ.End}
    {spent : Nat}
    (remains : Remains manners whole (.act (.spawn jobs) next) units lines)
    (ended : manners.batch jobs ends spent) :
    Remains manners whole (next (ends, none)) (units + spent) lines := by
  intro more rest value undisturbed
  rw [Nat.add_assoc]
  exact remains _ _ _ (.spawn ended undisturbed)

theorem Remains.observe {note : σ.Note} {next : Unit → Comp σ α}
    (remains : Remains manners whole (.act (.observe note) next) units
      lines) :
    Remains manners whole (next ()) units lines :=
  fun _ _ _ undisturbed => remains _ _ _ (.observe undisturbed)

/-- Threads of a batch that have been left alone so far. -/
inductive Underway (manners : Manners σ Line) (failed : σ.End → Prop) :
    List (Comp σ σ.End) → List (Comp σ σ.End) → Nat → Prop where
  | nil : Underway manners failed [] [] 0
  | cons {whole thread : Comp σ σ.End} {wholes threads : List (Comp σ σ.End)}
      {units spent : Nat} :
      Remains manners whole thread units [] →
      thread.Fragile manners failed →
      Underway manners failed wholes threads spent →
      Underway manners failed (whole :: wholes) (thread :: threads)
        (units + spent)

theorem Underway.start {failed : σ.End → Prop}
    {threads : List (Comp σ σ.End)}
    (fragile : ∀ thread ∈ threads, thread.Fragile manners failed) :
    Underway manners failed threads threads 0 := by
  induction threads with
  | nil => exact .nil
  | cons thread rest induction =>
      have first := fragile thread List.mem_cons_self
      have later := induction fun other member =>
        fragile other (List.mem_cons_of_mem _ member)
      exact .cons (remains_self manners thread) first later

/-- One thread may go on while the others wait. -/
theorem Underway.set {failed : σ.End → Prop}
    {wholes threads : List (Comp σ σ.End)} {spent i : Nat}
    {thread : Comp σ σ.End}
    (underway : Underway manners failed wholes threads spent)
    (found : threads[i]? = some thread) :
    ∃ whole units others, spent = units + others ∧
      Remains manners whole thread units [] ∧ thread.Fragile manners failed ∧
      ∀ {after more}, Remains manners whole after more [] →
        after.Fragile manners failed →
        Underway manners failed wholes (threads.set i after)
          (more + others) := by
  induction underway generalizing i with
  | nil => cases found
  | @cons whole first wholes threads units spent remains fragile rest
      induction =>
      cases i with
      | zero =>
          cases found
          exact ⟨whole, units, spent, rfl, remains, fragile,
            fun remains fragile => .cons remains fragile rest⟩
      | succ i =>
          obtain ⟨other, more, others, rfl, kept, holds, goes⟩ :=
            induction found
          refine ⟨other, more, units + others, by omega, kept, holds, ?_⟩
          intro after further remains' fragile'
          rw [Nat.add_left_comm]
          exact .cons remains fragile (goes remains' fragile')

theorem Underway.ended {failed : σ.End → Prop}
    {wholes : List (Comp σ σ.End)} {ends : List σ.End} {spent : Nat}
    (underway : Underway manners failed wholes (ends.map .ret) spent) :
    AllLeftAlone manners wholes ends spent := by
  induction ends generalizing wholes spent with
  | nil =>
      cases underway
      exact .nil
  | cons done rest induction =>
      cases underway with
      | cons remains fragile later =>
          exact .cons (remains _ _ _ (.ret done)) (induction later)

/-- One turn of a thread that has been left alone so far. -/
theorem stepThread_remains {shared : Shared σ} {whole thread : Comp σ σ.End}
    (orderly : setup.Orderly outer inner)
    (remains : Remains inner whole thread units [])
    (fragile : thread.Fragile inner outer.failed)
    (granted : outer.Granted (stepThread setup shared thread).1.calls) :
    (stepThread setup shared thread).2.Doomed outer.failed ∨
      ∃ more, Remains inner whole (stepThread setup shared thread).2
          more [] ∧
        (stepThread setup shared thread).2.Fragile inner outer.failed ∧
        (stepThread setup shared thread).1.budget + more =
          shared.budget + units ∧
        outer.lines (stepThread setup shared thread).1.calls =
          outer.lines shared.calls := by
  cases thread with
  | ret value => exact .inr ⟨units, remains, fragile, rfl, rfl⟩
  | act action next =>
      cases action with
      | tick =>
          simp only [stepThread, Shared.perform]
          by_cases empty : shared.budget = 0
          · simp only [if_pos empty]
            exact .inl fragile.2
          · simp only [if_neg empty]
            exact .inr ⟨units + 1, remains.tick, fragile.1, by omega, trivial⟩
      | call operation =>
          simp only [stepThread, Shared.perform] at granted ⊢
          cases answered : setup.host.answer shared.calls operation with
          | none => exact .inl orderly.panicked
          | some reply =>
              rw [answered] at granted
              obtain doomed | ⟨permitted, fragile⟩ := fragile
              · exact .inl (doomed reply)
              · have proper : outer.grants operation reply :=
                  granted ⟨operation, reply⟩ List.mem_cons_self
                have accepted := orderly.accepts permitted proper
                have silent := (orderly.grants accepted).2
                have kept := remains.call accepted
                rw [orderly.shown] at kept
                exact .inr ⟨units, kept, fragile reply accepted, rfl,
                  by simp [silent]⟩
      | spawn jobs => exact .inl orderly.panicked
      | observe note =>
          exact .inr ⟨units, remains.observe, fragile, rfl, rfl⟩

/-- So far the run has left its computation alone. -/
def Machine.Peaceful (outer inner : Manners σ Line) (setup : Setup σ)
    (bad : α → Prop) (whole : Comp σ α) (budget : Nat)
    (machine : Machine σ α) : Prop :=
  match machine.control with
  | .running main => main.Fragile outer bad ∧ ∃ units,
      Remains outer whole main units (outer.lines machine.shared.calls) ∧
        machine.shared.budget + units = budget
  | .joining jobs threads refusal next => refusal = none ∧
      (Comp.act (.spawn jobs) next).Fragile outer bad ∧ ∃ units spent,
        Remains outer whole (.act (.spawn jobs) next) units
          (outer.lines machine.shared.calls) ∧
        Underway inner outer.failed (jobs.map setup.job) threads spent ∧
        machine.shared.budget + (units + spent) = budget
  | .crashed => False

/-- For what becomes of failed computations only their ends matter. -/
def Manners.mirror (manners : Manners σ Line) : Mirror σ where
  strict := True
  calls _ _ := False
  replies _ _ _ _ := False
  jobs _ _ := False
  ends _ _ := False
  failed := manners.failed

theorem Machine.stepMain_peaceful {shared : Shared σ} {main : Comp σ α}
    {budget : Nat} (orderly : setup.Orderly outer inner)
    (fragile : main.Fragile outer bad)
    (remains : Remains outer whole main units (outer.lines shared.calls))
    (spent : shared.budget + units = budget)
    (granted : outer.Granted
      (Machine.stepMain setup shared main).shared.calls) :
    (Machine.stepMain setup shared main).control.Doomed outer.mirror bad ∨
      (Machine.stepMain setup shared main).Peaceful outer inner setup bad
        whole budget := by
  cases main with
  | ret value => exact .inr ⟨fragile, units, remains, spent⟩
  | act action next =>
      cases action with
      | tick =>
          simp only [Machine.stepMain, Machine.act, Shared.perform]
          by_cases empty : shared.budget = 0
          · simp only [if_pos empty]
            exact .inl fragile.2
          · simp only [if_neg empty]
            refine .inr ⟨fragile.1, units + 1, remains.tick, ?_⟩
            dsimp only
            omega
      | call operation =>
          simp only [Machine.stepMain, Machine.act, Shared.perform]
            at granted ⊢
          cases answered : setup.host.answer shared.calls operation with
          | none => exact .inl trivial
          | some reply =>
              rw [answered] at granted
              obtain doomed | ⟨permitted, fragile⟩ := fragile
              · exact .inl (doomed reply)
              · have proper : outer.grants operation reply :=
                  granted ⟨operation, reply⟩ List.mem_cons_self
                have kept := remains.call proper
                rw [← outer.lines_cons ⟨operation, reply⟩] at kept
                exact .inr ⟨fragile reply proper, units, kept, spent⟩
      | spawn jobs =>
          have started := startThreads_none
            (orderly.starts shared.calls) 0 jobs.length
          rw [Nat.zero_add] at started
          simp only [Machine.stepMain, Machine.spawn, started,
            List.take_length]
          obtain doomed | ⟨expected, hopeless, continues⟩ := fragile
          · exact .inl (.inr doomed)
          · refine .inr ⟨rfl, .inr ⟨expected, hopeless, continues⟩, units, 0,
              remains, .start ?_, spent⟩
            rintro _ member
            obtain ⟨job, inside, rfl⟩ := List.mem_map.mp member
            exact orderly.jobs (expected job inside)
      | observe note =>
          exact .inr ⟨fragile, units, remains.observe, spent⟩

theorem Underway.length_eq {failed : σ.End → Prop}
    {wholes threads : List (Comp σ σ.End)} {spent : Nat}
    (underway : Underway manners failed wholes threads spent) :
    threads.length = wholes.length := by
  induction underway with
  | nil => rfl
  | cons _ _ _ induction => simp [induction]

/-- A step leaves the computation alone, or it can only end badly. -/
theorem Machine.step_peaceful {machine : Machine σ α} {budget : Nat}
    (orderly : setup.Orderly outer inner) (choice : Nat)
    (peaceful : machine.Peaceful outer inner setup bad whole budget)
    (granted : outer.Granted (machine.step setup choice).shared.calls) :
    (machine.step setup choice).control.Doomed outer.mirror bad ∨
      (machine.step setup choice).Peaceful outer inner setup bad whole
        budget := by
  obtain ⟨shared, control⟩ := machine
  cases control with
  | crashed => exact peaceful.elim
  | running main =>
      obtain ⟨fragile, units, remains, spent⟩ := peaceful
      exact Machine.stepMain_peaceful orderly fragile remains spent granted
  | joining jobs threads refusal next =>
      obtain ⟨rfl, fragile, units, spent, remains, underway, total⟩ := peaceful
      simp only [Machine.step, Machine.stepJoining] at granted ⊢
      cases chosen : (unfinished threads)[choice %
        (unfinished threads).length]? with
      | none =>
          obtain ⟨ends, rfl, collected⟩ := unfinished_nil (waiting_nil chosen)
          have ended := orderly.batch.mpr underway.ended
          simp only [collected]
          obtain doomed | ⟨_, _, continues⟩ := fragile
          · exact .inl (doomed _)
          · exact .inr ⟨continues ends spent ended, units + spent,
              remains.spawn ended, total⟩
      | some i =>
          rw [chosen] at granted
          dsimp only at granted ⊢
          cases found : threads[i]? with
          | none =>
              exact .inr ⟨rfl, fragile, units, spent, remains, underway,
                total⟩
          | some thread =>
              rw [found] at granted
              obtain ⟨origin, own, others, rfl, kept, holds, goes⟩ :=
                underway.set found
              obtain doomed | ⟨more, kept', holds', paid, shown⟩ :=
                stepThread_remains orderly kept holds granted
              · left
                obtain always | ⟨_, hopeless, _⟩ := fragile
                · exact .inr always
                · refine .inl ⟨?_, ⟨_, ?_, doomed⟩, hopeless⟩
                  · rw [List.length_set, underway.length_eq,
                      List.length_map]
                  · obtain ⟨inside, _⟩ := List.getElem?_eq_some_iff.mp found
                    exact List.mem_set inside _
              · refine .inr ⟨rfl, fragile, units, more + others, ?_,
                  goes kept' holds', ?_⟩
                · dsimp only
                  rwa [shown]
                · dsimp only at total ⊢
                  omega

/-- A run that ended well has left its computation alone, if its calls were
answered as they should be. -/
theorem Machine.run_peaceful {machine : Machine σ α} {budget : Nat}
    (orderly : setup.Orderly outer inner) (choices : List Nat)
    (peaceful : machine.control.Doomed outer.mirror bad ∨
      machine.Peaceful outer inner setup bad whole budget)
    (granted : outer.Granted (machine.run setup choices).shared.calls) :
    (machine.run setup choices).control.Doomed outer.mirror bad ∨
      (machine.run setup choices).Peaceful outer inner setup bad whole
        budget := by
  induction choices generalizing machine with
  | nil => exact peaceful
  | cons choice rest induction =>
      apply induction ?_ granted
      obtain doomed | peaceful := peaceful
      · have mirrored : outer.mirror.strict ∨ ∀ a, ¬ bad a := .inl trivial
        exact .inl (Machine.step_doomed choice (.inl orderly.panicked)
          orderly.replies mirrored doomed)
      · exact Machine.step_peaceful orderly choice peaceful
          (granted.of_suffix (Machine.run_calls setup rest _))

theorem Machine.run_undisturbed {budget : Nat} {main : Comp σ α} {a : α}
    (orderly : setup.Orderly outer inner) (fragile : main.Fragile outer bad)
    (choices : List Nat)
    (finished : ((Machine.start budget main).run setup choices).result? =
      some a) (good : ¬ bad a)
    (granted : outer.Granted
      ((Machine.start budget main).run setup choices).shared.calls) :
    ∃ units, LeftAlone outer main units (outer.lines
        ((Machine.start budget main).run setup choices).shared.calls) a ∧
      ((Machine.start budget main).run setup choices).shared.budget + units =
        budget := by
  have initial : (Machine.start budget main).Peaceful outer inner setup bad
      main budget := ⟨fragile, 0, remains_self outer main, rfl⟩
  have peaceful := Machine.run_peaceful orderly choices (.inr initial) granted
  revert peaceful finished
  generalize (Machine.start budget main).run setup choices = machine
  obtain ⟨shared, control⟩ := machine
  intro finished peaceful
  cases control with
  | joining jobs threads refusal next => cases finished
  | crashed => cases finished
  | running rest =>
      cases rest with
      | act action next => cases finished
      | ret value =>
          cases finished
          obtain doomed | ⟨_, units, remains, spent⟩ := peaceful
          · exact absurd doomed good
          · refine ⟨units, ?_, spent⟩
            simpa using remains _ _ _ (.ret a)

end Forward

section Backward

variable {setup : Setup σ} {outer inner manners : Manners σ Line}
  {value : α} {lines : List Line} {left : Nat}

/-- One thread may go on towards its end while the others wait. -/
theorem AllLeftAlone.set {threads : List (Comp σ σ.End)}
    {ends : List σ.End} {spent i : Nat} {thread : Comp σ σ.End}
    (all : AllLeftAlone manners threads ends spent)
    (found : threads[i]? = some thread) :
    ∃ done units others, spent = units + others ∧
      LeftAlone manners thread units [] done ∧
      ∀ {after more}, LeftAlone manners after more [] done →
        AllLeftAlone manners (threads.set i after) ends
          (more + others) := by
  induction all generalizing i with
  | nil => cases found
  | @cons first threads done ends units spent undisturbed rest induction =>
      cases i with
      | zero =>
          cases found
          exact ⟨done, units, spent, rfl, undisturbed,
            fun undisturbed => .cons undisturbed rest⟩
      | succ i =>
          obtain ⟨other, more, others, rfl, kept, goes⟩ := induction found
          refine ⟨other, more, units + others, by omega, kept, ?_⟩
          intro after further again
          rw [Nat.add_left_comm]
          exact .cons undisturbed (goes again)

theorem AllLeftAlone.ended {ends ends' : List σ.End} {spent : Nat}
    (all : AllLeftAlone manners (ends.map .ret) ends' spent) :
    ends' = ends ∧ spent = 0 := by
  induction ends generalizing ends' spent with
  | nil =>
      cases all
      exact ⟨rfl, rfl⟩
  | cons done rest induction =>
      cases all with
      | cons first later =>
          cases first
          obtain ⟨rfl, rfl⟩ := induction later
          exact ⟨rfl, rfl⟩

/-- The host answers every call as it should, whenever it is made. -/
def Setup.Obliges (setup : Setup σ) (manners : Manners σ Line) : Prop :=
  ∀ history operation reply, manners.grants operation reply →
    setup.host.answer history operation = some reply

/-- One turn of a thread that has the budget for what is left of it. -/
theorem stepThread_undisturbed {shared : Shared σ} {thread : Comp σ σ.End}
    {done : σ.End} {units others : Nat} (orderly : setup.Orderly outer inner)
    (obliges : setup.Obliges outer)
    (undisturbed : LeftAlone inner thread units [] done)
    (enough : shared.budget = units + others) :
    ∃ more, LeftAlone inner (stepThread setup shared thread).2 more [] done ∧
      (stepThread setup shared thread).1.budget = more + others ∧
      outer.lines (stepThread setup shared thread).1.calls =
        outer.lines shared.calls := by
  obtain ⟨empty, same⟩ : ∃ empty, ([] : List Line) = empty := ⟨[], rfl⟩
  rw [same] at undisturbed
  cases undisturbed with
  | ret value =>
      cases same
      exact ⟨0, .ret done, enough, rfl⟩
  | @tick next units _ _ rest =>
      cases same
      have some : shared.budget ≠ 0 := by omega
      simp only [stepThread, Shared.perform, if_neg some]
      exact ⟨units, rest, by omega, trivial⟩
  | @call operation next reply _ _ _ granted rest =>
      obtain ⟨_, rfl⟩ := List.nil_eq_append_iff.mp same
      obtain ⟨proper, silent⟩ := orderly.grants granted
      simp only [stepThread, Shared.perform,
        obliges shared.calls operation reply proper]
      exact ⟨units, rest, enough, by simp [silent]⟩
  | spawn ended rest => exact (orderly.serial ended).elim
  | observe rest =>
      cases same
      exact ⟨units, rest, enough, rfl⟩

/-- What is left to do leads to the value, and there is the budget for it. -/
def Machine.Settled (outer inner : Manners σ Line) (value : α)
    (lines : List Line) (left : Nat) (machine : Machine σ α) : Prop :=
  match machine.control with
  | .running main => ∃ units rest, LeftAlone outer main units rest value ∧
      machine.shared.budget = units + left ∧
      outer.lines machine.shared.calls ++ rest = lines
  | .joining _ threads refusal next => refusal = none ∧
      ∃ ends spent units rest, AllLeftAlone inner threads ends spent ∧
        LeftAlone outer (next (ends, none)) units rest value ∧
        machine.shared.budget = spent + (units + left) ∧
        outer.lines machine.shared.calls ++ rest = lines
  | .crashed => False

theorem Machine.stepMain_settled {shared : Shared σ} {main : Comp σ α}
    {units : Nat} {rest : List Line} (orderly : setup.Orderly outer inner)
    (obliges : setup.Obliges outer)
    (undisturbed : LeftAlone outer main units rest value)
    (enough : shared.budget = units + left)
    (shown : outer.lines shared.calls ++ rest = lines) :
    (Machine.stepMain setup shared main).Settled outer inner value lines
      left := by
  cases undisturbed with
  | ret value => exact ⟨0, [], .ret value, enough, shown⟩
  | @tick next units _ _ later =>
      have some : shared.budget ≠ 0 := by omega
      simp only [Machine.stepMain, Machine.act, Shared.perform, if_neg some]
      refine ⟨units, rest, later, ?_, shown⟩
      dsimp only
      omega
  | @call operation next reply _ more _ granted later =>
      simp only [Machine.stepMain, Machine.act, Shared.perform,
        obliges shared.calls operation reply granted]
      refine ⟨units, more, later, enough, ?_⟩
      rw [← List.append_assoc] at shown
      simpa using shown
  | @spawn jobs next ends spent units _ _ ended later =>
      have started := startThreads_none
        (orderly.starts shared.calls) 0 jobs.length
      rw [Nat.zero_add] at started
      simp only [Machine.stepMain, Machine.spawn, started, List.take_length]
      refine ⟨rfl, ends, spent, units, rest, orderly.batch.mp ended, later, ?_,
        shown⟩
      dsimp only
      omega
  | observe later => exact ⟨units, rest, later, enough, shown⟩

/-- Whichever thread takes its turn, the run still leads to the value. -/
theorem Machine.step_settled {machine : Machine σ α}
    (orderly : setup.Orderly outer inner) (obliges : setup.Obliges outer)
    (choice : Nat)
    (settled : machine.Settled outer inner value lines left) :
    (machine.step setup choice).Settled outer inner value lines left := by
  obtain ⟨shared, control⟩ := machine
  cases control with
  | crashed => exact settled.elim
  | running main =>
      obtain ⟨units, rest, undisturbed, enough, shown⟩ := settled
      exact Machine.stepMain_settled orderly obliges undisturbed enough shown
  | joining jobs threads refusal next =>
      obtain ⟨rfl, ends, spent, units, rest, all, undisturbed, enough, shown⟩ :=
        settled
      simp only [Machine.step, Machine.stepJoining]
      cases chosen : (unfinished threads)[choice %
        (unfinished threads).length]? with
      | none =>
          obtain ⟨values, rfl, collected⟩ :=
            unfinished_nil (waiting_nil chosen)
          obtain ⟨rfl, rfl⟩ := all.ended
          simp only [collected]
          rw [Nat.zero_add] at enough
          exact ⟨units, rest, undisturbed, enough, shown⟩
      | some i =>
          dsimp only
          cases found : threads[i]? with
          | none =>
              exact ⟨rfl, ends, spent, units, rest, all, undisturbed, enough,
                shown⟩
          | some thread =>
              obtain ⟨done, own, others, rfl, alone, goes⟩ := all.set found
              have total : shared.budget = own + (others + (units + left)) := by
                dsimp only at enough
                omega
              obtain ⟨more, alone', paid, same⟩ :=
                stepThread_undisturbed orderly obliges alone total
              refine ⟨rfl, ends, more + others, units, rest, goes alone',
                undisturbed, ?_, ?_⟩
              · dsimp only
                omega
              · dsimp only
                rwa [same]

theorem Machine.run_settled {machine : Machine σ α}
    (orderly : setup.Orderly outer inner) (obliges : setup.Obliges outer)
    (choices : List Nat)
    (settled : machine.Settled outer inner value lines left) :
    (machine.run setup choices).Settled outer inner value lines left := by
  induction choices generalizing machine with
  | nil => exact settled
  | cons choice rest induction =>
      exact induction (Machine.step_settled orderly obliges choice settled)

/-- A run that is over has the value, has shown the lines, and has as much
left as it should. -/
theorem Machine.Settled.result {machine : Machine σ α} {a : α}
    (settled : machine.Settled outer inner value lines left)
    (finished : machine.result? = some a) :
    a = value ∧ outer.lines machine.shared.calls = lines ∧
      machine.shared.budget = left := by
  obtain ⟨shared, control⟩ := machine
  cases control with
  | joining jobs threads refusal next => cases finished
  | crashed => cases finished
  | running rest =>
      cases rest with
      | act action next => cases finished
      | ret b =>
          cases finished
          obtain ⟨units, rest, undisturbed, enough, shown⟩ := settled
          cases undisturbed
          exact ⟨rfl, by simpa using shown, by simpa using enough⟩

theorem Machine.settled_start {budget units : Nat} {main : Comp σ α}
    (undisturbed : LeftAlone outer main units lines value)
    (enough : units ≤ budget) :
    (Machine.start budget main).Settled outer inner value lines
      (budget - units) := by
  refine ⟨units, lines, undisturbed, ?_, rfl⟩
  dsimp only [Machine.start]
  omega

/-- Under every schedule a computation that ends when it is left alone ends
like that. -/
theorem Machine.schedule_settled {budget units : Nat} {main : Comp σ α}
    (orderly : setup.Orderly outer inner) (obliges : setup.Obliges outer)
    (undisturbed : LeftAlone outer main units lines value)
    (enough : units ≤ budget) (schedule : Nat → Nat) :
    ∃ turns, ((Machine.start budget main).run setup
      ((List.range turns).map schedule)).result? = some value := by
  obtain ⟨turns, ended⟩ :=
    Machine.schedule_ends setup schedule (Machine.start budget main)
  refine ⟨turns, ?_⟩
  have settled := Machine.run_settled orderly obliges
    ((List.range turns).map schedule)
    (Machine.settled_start undisturbed enough)
  revert settled ended
  generalize (Machine.start budget main).run setup _ = machine
  intro ended settled
  obtain crashed | finished := ended
  · obtain ⟨shared, control⟩ := machine
    cases crashed
    exact settled.elim
  · obtain ⟨a, finished⟩ := Option.isSome_iff_exists.mp finished
    rw [finished, (settled.result finished).1]

end Backward

end NetLang
