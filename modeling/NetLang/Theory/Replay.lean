import NetLang.Theory.Iterations

/-!
# Replay of worker output

A parent delivers the output of the iterations of a batch in input order.  A
line that its host refuses ends the output of one iteration; the output of the
next iteration of the batch is delivered all the same.
-/

namespace NetLang

open Interp

/-- The output of one iteration, and how many of its lines were accepted. -/
structure Entry where
  lines : List String
  accepted : Nat

namespace Entry

/-- A line was refused. -/
def Lost (entry : Entry) : Prop :=
  entry.accepted < entry.lines.length

def delivered (entry : Entry) : List String :=
  entry.lines.take entry.accepted

/-- The lines that the host was given, and whether it accepted them. -/
def attempts (entry : Entry) : List (String × Bool) :=
  entry.delivered.map (·, true) ++
    ((entry.lines.drop entry.accepted).take 1).map (·, false)

/-- The first line, if there is one, is refused. -/
def Silent (entry : Entry) : Prop :=
  entry.delivered = []

/-- After an iteration that lost a line, the later ones have nothing
accepted. -/
def Settled (entries : List Entry) : Prop :=
  entries.Pairwise fun entry later => entry.Lost → later.Silent

end Entry

/-- Whether a host accepts a line, after the lines that it was given before
and what it made of them. -/
abbrev Printer := List (String × Bool) → String → Bool

namespace Printer

variable (printer : Printer)

/-- What the host makes of some lines is what it was found to. -/
def Answers (printer : Printer) (given : List (String × Bool)) :
    List (String × Bool) → Prop
  | [] => True
  | (line, accepted) :: rest =>
      printer given line = accepted ∧
        Answers printer (given ++ [(line, accepted)]) rest

/-- The lines, all of them accepted. -/
def passed (lines : List String) : List (String × Bool) :=
  lines.map (·, true)

/-- The host accepts the lines, one after the other. -/
def Accepts (given : List (String × Bool)) (lines : List String) : Prop :=
  printer.Answers given (passed lines)

variable {printer} {given : List (String × Bool)}

end Printer

namespace Entry

open Printer

variable {printer : Printer} {given : List (String × Bool)}

end Entry

/-- What a host was given to print, and whether it accepted it. -/
def heard? (host : HostId) : Event effects → Option (String × Bool)
  | ⟨.call (caller, .print text), reply⟩ =>
      if caller = host then
        some (text, match reply with | .ok _ => true | .error _ => false)
      else none
  | _ => none

def heard (host : HostId) (events : List (Event effects)) :
    List (String × Bool) :=
  events.filterMap (heard? host)

/-- The lines that a host has accepted. -/
def accepted (host : HostId) (events : List (Event effects)) : List String :=
  ((heard host events).filter Prod.snd).map Prod.fst

/-- The output of an iteration whose thread was joined. -/
def WorkerEnd.output : WorkerEnd → List String
  | .finished outcome => outcome.output
  | .panicked | .outOfFuel => []

/-- The output of each iteration of a batch.  The one whose thread could not
be started has none. -/
def batchOutputs? : Event effects → Option (List (List String))
  | ⟨.spawn jobs, reply⟩ =>
      some ((jobs.zip reply.1).map (fun entry => entry.2.output) ++
        reply.2.toList.map fun _ => [])
  | _ => none

def batchOutputs (events : List (Event effects)) : List (List (List String)) :=
  events.filterMap batchOutputs?

/-- The output of all iterations. -/
def collected (events : List (Event effects)) : List String :=
  (batchOutputs events).flatten.flatten

@[simp] theorem heard_append (host : HostId)
    (front back : List (Event effects)) :
    heard host (front ++ back) = heard host front ++ heard host back :=
  List.filterMap_append

/-- What the parent did with the output of iterations. -/
structure Replays (before after : Interpreter) (events : List (Event effects))
    (entries : List Entry) : Prop where
  parent : SameParent before after
  outside : before.runtime.buffer = none →
    heard before.runtime.host events = entries.flatMap Entry.attempts
  inside : before.runtime.buffer.isSome = true →
    after.output = before.output ++ entries.flatMap Entry.delivered

section Deliver

variable {point : Point} {state after : Interpreter}
  {events : List (Event effects)}

theorem Replays.nil (quiet : heard state.runtime.host events = [])
    (parent : SameParent state after) (output : after.output = state.output) :
    Replays state after events [] :=
  ⟨parent, fun _ => quiet, fun _ => by simp [output]⟩

theorem Replays.append {middle : Interpreter}
    {back : List (Event effects)} {entries more : List Entry}
    (first : Replays state middle events entries)
    (rest : Replays middle after back more) :
    Replays state after (events ++ back) (entries ++ more) := by
  refine ⟨first.parent.trans rest.parent, fun outside => ?_,
    fun inside => ?_⟩
  · have outside' : middle.runtime.buffer = none := by
      have same := first.parent.buffered
      rw [outside] at same
      simpa using same
    have later := rest.outside outside'
    rw [first.parent.host] at later
    rw [heard_append, first.outside outside, later, List.flatMap_append]
  · have inside' := first.parent.buffered.trans inside
    rw [rest.inside inside', first.inside inside, List.flatMap_append,
      List.append_assoc]

end Deliver

variable [Formatting]

section Jobs

variable {self : Evaluator} {point : Point} {jobs : List Worker}
  {state after : Interpreter} {events : List (Event effects)}

end Jobs

section Batches

variable {self : Evaluator} {point : Point}
  {job : Nat → Value → HostId → Worker} {state after : Interpreter}
  {events : List (Event effects)}
  (keyed : ∀ i value host, (job i value host).key = (i, value))

include keyed

end Batches

end NetLang
