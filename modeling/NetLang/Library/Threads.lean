import NetLang.Library.Safety

/-!
# Threads that share a budget

A program runs in a main thread.  When it spawns a batch of jobs, it waits
until all of them have ended, while their threads take turns in an arbitrary
order.  The threads share one budget, one host and the list of observations.
A batch is never spawned from inside a batch.

A host is a function of what it has been asked and has replied so far.  A run
is a list of choices of the thread that takes the next turn.
-/

namespace NetLang

variable {σ : Signature} {α : Type}

/-- The calls a host has answered, last one first. -/
abbrev History (σ : Signature) := List ((call : σ.Call) × σ.Reply call)

/-- A host answers calls, unless it panics, and may refuse to start the thread
of a job, which is given by its position in the batch. -/
structure Host (σ : Signature) where
  answer : History σ → (call : σ.Call) → Option (σ.Reply call)
  refuse : History σ → Nat → Option σ.Refusal

/-- A host, and what the jobs of a batch do; `panicked` is the end of a job
whose thread panics. -/
structure Setup (σ : Signature) where
  host : Host σ
  job : σ.Job → Comp σ σ.End
  panicked : σ.End

/-- What the threads share. -/
structure Shared (σ : Signature) where
  budget : Nat
  calls : History σ
  notes : List σ.Note

inductive Control (σ : Signature) (α : Type) where
  | running (main : Comp σ α)
  | joining (jobs : List σ.Job) (threads : List (Comp σ σ.End))
      (refusal : Option σ.Refusal)
      (next : List σ.End × Option σ.Refusal → Comp σ α)
  | crashed

structure Machine (σ : Signature) (α : Type) where
  shared : Shared σ
  control : Control σ α

/-- One action of a thread, unless it panics or is a batch. -/
def Shared.perform (host : Host σ) (shared : Shared σ) :
    (action : Action σ) → Option (Shared σ × action.Reply)
  | .tick =>
      if shared.budget = 0 then some (shared, false)
      else some ({ shared with budget := shared.budget - 1 }, true)
  | .call operation =>
      match host.answer shared.calls operation with
      | none => none
      | some reply =>
          some ({ shared with calls := ⟨operation, reply⟩ :: shared.calls },
            reply)
  | .observe note =>
      some ({ shared with notes := note :: shared.notes }, ())
  | .spawn _ => none

/-- The number of jobs that are started, and why the next one is not. -/
def startThreads (refuse : Nat → Option σ.Refusal) :
    Nat → Nat → Nat × Option σ.Refusal
  | started, 0 => (started, none)
  | started, waiting + 1 =>
      match refuse started with
      | some refusal => (started, some refusal)
      | none => startThreads refuse (started + 1) waiting

def Comp.value? : Comp σ α → Option α
  | .ret value => some value
  | .act _ _ => none

/-- The positions of the threads that have not ended. -/
def unfinished (threads : List (Comp σ σ.End)) : List Nat :=
  (List.range threads.length).filter fun i =>
    (threads[i]?.map fun thread => thread.value?.isNone).getD false

/-- One turn of a thread of a batch. -/
def stepThread (setup : Setup σ) (shared : Shared σ) :
    Comp σ σ.End → Shared σ × Comp σ σ.End
  | .ret value => (shared, .ret value)
  | .act action next =>
      match shared.perform setup.host action with
      | some (shared, reply) => (shared, next reply)
      | none => (shared, .ret setup.panicked)

namespace Machine

def start (budget : Nat) (main : Comp σ α) : Machine σ α :=
  ⟨⟨budget, [], []⟩, .running main⟩

def spawn (setup : Setup σ) (shared : Shared σ) (jobs : List σ.Job)
    (next : List σ.End × Option σ.Refusal → Comp σ α) : Machine σ α :=
  let (started, refusal) :=
    startThreads (setup.host.refuse shared.calls) 0 jobs.length
  ⟨shared, .joining jobs ((jobs.take started).map setup.job) refusal next⟩

/-- One action of the main thread, unless it is a batch. -/
def act (setup : Setup σ) (shared : Shared σ) (action : Action σ)
    (next : action.Reply → Comp σ α) : Machine σ α :=
  match shared.perform setup.host action with
  | some (shared, reply) => ⟨shared, .running (next reply)⟩
  | none => ⟨shared, .crashed⟩

def stepMain (setup : Setup σ) (shared : Shared σ) :
    Comp σ α → Machine σ α
  | .ret value => ⟨shared, .running (.ret value)⟩
  | .act (.spawn jobs) next => spawn setup shared jobs next
  | .act action next => act setup shared action next

/-- The main thread goes on when the whole batch has ended; otherwise one of
the other threads takes a turn. -/
def stepJoining (setup : Setup σ) (choice : Nat) (shared : Shared σ)
    (jobs : List σ.Job) (threads : List (Comp σ σ.End))
    (refusal : Option σ.Refusal)
    (next : List σ.End × Option σ.Refusal → Comp σ α) : Machine σ α :=
  let waiting := unfinished threads
  match waiting[choice % waiting.length]? with
  | none => ⟨shared,
      .running (next (threads.filterMap Comp.value?, refusal))⟩
  | some i =>
      match threads[i]? with
      | none => ⟨shared, .joining jobs threads refusal next⟩
      | some thread =>
          let (shared, thread) := stepThread setup shared thread
          ⟨shared, .joining jobs (threads.set i thread) refusal next⟩

def step (setup : Setup σ) (choice : Nat) (machine : Machine σ α) :
    Machine σ α :=
  match machine.control with
  | .running main => stepMain setup machine.shared main
  | .joining jobs threads refusal next =>
      stepJoining setup choice machine.shared jobs threads refusal next
  | .crashed => machine

/-- A run, as the choices made in it. -/
def run (setup : Setup σ) : List Nat → Machine σ α → Machine σ α
  | [], machine => machine
  | choice :: rest, machine => run setup rest (machine.step setup choice)

def result? (machine : Machine σ α) : Option α :=
  match machine.control with
  | .running main => main.value?
  | _ => none

end Machine

end NetLang
