import NetLang.Library.Schedules
import NetLang.Relational.Mirrors

/-!
# Programs that only print

When a print never fails and nothing else is asked of the host, what an
execution does when it is left alone is a number of steps, the printed lines,
and a result.  Workers print nothing at once.
-/

namespace NetLang

open Interp

namespace HostCall

/-- The reply of a host that prints, and creates hosts for workers. -/
def Granted : (call : HostCall) → Except String call.Answer → Prop
  | .print _, reply | .fork, reply => reply = .ok ()
  | _, _ => False

/-- Printing, and creating hosts for workers. -/
def prints : HostCall → Bool
  | .print _ | .fork => true
  | _ => false

def shown : HostCall → List String
  | .print text => [text]
  | _ => []

theorem shown_nil {call : HostCall} (notPrint : call.isPrint = false) :
    call.shown = [] := by
  cases call with
  | print text => cases notPrint
  | _ => rfl

variable {matching : Matching}

theorem Rel.isPrint {call call' : HostCall}
    (related : call.Rel matching call') : call'.isPrint = call.isPrint := by
  cases call <;> cases call' <;> first | rfl | exact related.elim

/-- A related call is granted as well. -/
theorem Rel.granted {call call' : HostCall}
    (related : call.Rel matching call') {reply : Except String call.Answer}
    (granted : call.Granted reply) : ∃ reply', call'.Granted reply' := by
  cases call with
  | print text =>
      cases call' with
      | print text' => exact ⟨.ok (), rfl⟩
      | _ => exact related.elim
  | fork =>
      cases call' with
      | fork => exact ⟨.ok (), rfl⟩
      | _ => exact related.elim
  | _ => exact granted.elim

theorem Rel.replies {call call' : HostCall}
    (related : call.Rel matching call') {reply : Except String call.Answer}
    {reply' : Except String call'.Answer} (granted : call.Granted reply)
    (granted' : call'.Granted reply') :
    call.ReplyRel matching call' reply reply' := by
  cases call with
  | print text =>
      cases call' with
      | print text' =>
          cases (granted : reply = .ok ())
          cases (granted' : reply' = .ok ())
          trivial
      | _ => exact related.elim
  | fork =>
      cases call' with
      | fork =>
          cases (granted : reply = .ok ())
          cases (granted' : reply' = .ok ())
          trivial
      | _ => exact related.elim
  | _ => exact granted.elim

end HostCall

/-- What is expected of workers: they leave printing to their parents, and
start no threads. -/
def workerManners : Manners effects String where
  grants operation reply :=
    operation.2.isPrint = false ∧ operation.2.Granted reply
  shown _ := []
  permits operation := operation.2.isPrint = false
  jobs _ := False
  batch _ _ _ := False
  failed := WorkerEnd.Fails

/-- What is expected of the main thread. -/
def mainManners [Formatting] : Manners effects String where
  grants operation reply := operation.2.Granted reply
  shown operation := operation.2.shown
  permits _ := True
  jobs job := (workerThread job).Fragile workerManners WorkerEnd.Fails
  batch jobs ends spent :=
    AllLeftAlone workerManners (jobs.map workerThread) ends spent
  failed := WorkerEnd.Fails

def manners [Formatting] : Bool → Manners effects String
  | true => workerManners
  | false => mainManners

section

variable [Formatting] {α : Type}

theorem setup_printing {host : Host effects}
    (starts : ∀ history i, host.refuse history i = none) :
    (setup host).Orderly mainManners workerManners where
  starts := starts
  batch := Iff.rfl
  grants accepted := ⟨accepted.2, HostCall.shown_nil accepted.1⟩
  accepts notPrint granted := ⟨notPrint, granted⟩
  shown _ := rfl
  serial := id
  jobs fragile := fragile
  panicked := trivial
  replies _ := ⟨.error ""⟩

theorem granted_of_manners {worker : Bool} {operation : effects.Call}
    {reply : effects.Reply operation}
    (granted : (manners worker).grants operation reply) :
    operation.2.Granted reply := by
  cases worker with
  | true => exact granted.2
  | false => exact granted

/-- A host that prints, forks and starts threads whenever it is asked to. -/
structure Host.Prints (host : Host effects) : Prop where
  print : ∀ history id text,
    host.answer history (id, .print text) = some (.ok ())
  fork : ∀ history id, host.answer history (id, .fork) = some (.ok ())
  starts : ∀ history i, host.refuse history i = none

/-- Nothing was asked of the host except prints and hosts for workers. -/
def OnlyPrints (calls : History effects) : Prop :=
  ∀ entry ∈ calls, entry.1.2.prints = true

/-- What has been printed, first line first. -/
def printedLines (calls : History effects) : List String :=
  calls.reverse.flatMap fun entry => entry.1.2.shown

omit [Formatting] in
/-- A printing host answers as it should. -/
theorem Host.Prints.answers {host : Host effects} (prints : host.Prints)
    {history : History effects} {operation : effects.Call}
    {reply : effects.Reply operation}
    (replied : host.answer history operation = some reply)
    (expected : operation.2.prints = true) :
    operation.2.Granted reply := by
  obtain ⟨id, call⟩ := operation
  cases call with
  | print text => exact Option.some.inj (replied.symm.trans (prints.print _ _ _))
  | fork => exact Option.some.inj (replied.symm.trans (prints.fork _ _))
  | _ => cases expected

theorem Host.Prints.granted {host : Host effects} (prints : host.Prints)
    {budget : Nat} {main : Comp effects α} (choices : List Nat)
    (only : OnlyPrints
      ((Machine.start budget main).run (setup host) choices).shared.calls) :
    mainManners.Granted
      ((Machine.start budget main).run (setup host) choices).shared.calls := by
  have answers := @Machine.run_answers _ _ (setup host) budget main
    (fun operation reply => ∃ history,
      host.answer history operation = some reply)
    (fun history _ _ replied => ⟨history, replied⟩) choices
  intro entry member
  obtain ⟨history, replied⟩ := answers entry member
  exact prints.answers replied (only entry member)

omit [Formatting] in
theorem Host.Prints.obliges [Formatting] {host : Host effects}
    (prints : host.Prints) : (setup host).Obliges mainManners := by
  rintro history ⟨id, call⟩ reply granted
  cases call with
  | print text =>
      cases (granted : reply = .ok ())
      exact prints.print history id text
  | fork =>
      cases (granted : reply = .ok ())
      exact prints.fork history id
  | _ => exact False.elim granted

variable {comparison : Comparison} {situation : Situation} {world : World}

/-- The right execution does what the left one does when it is left alone. -/
abbrev following (left right : Bool) (fragile : Prop) :
    Simulation effects String :=
  (manners left).simulation (manners right) fragile

theorem following_supports (strict : comparison.strict = true)
    (left right : Bool) (fragile : Prop) :
    Supports (following left right fragile) comparison where
  strict := ⟨fun _ => trivial, fun _ => strict⟩
  calls _ notPrint related := by
    have notPrint' := related.isPrint.trans notPrint
    have silent := HostCall.shown_nil notPrint
    have silent' := HostCall.shown_nil notPrint'
    refine ⟨?_, ?_, ?_, ?_⟩
    · cases left
      · trivial
      · exact notPrint
    · cases left
      · exact silent
      · rfl
    · cases right
      · exact silent'
      · rfl
    · intro reply granted
      obtain ⟨reply', granted'⟩ :=
        related.granted (granted_of_manners granted)
      refine ⟨reply', ?_⟩
      cases right
      · exact granted'
      · exact ⟨notPrint', granted'⟩
  replies _ _ related heard := related.replies
    (granted_of_manners heard.1) (granted_of_manners heard.2)

/-- When the left computation has ended well in one run, the right one ends
in all of its runs as it does when it is left alone, after as many steps. -/
theorem runs_follow {host : Host effects} (prints : host.Prints)
    {bad : α → Prop}
    {post : List String × α → List String × α → Prop}
    {left right : Comp effects α} (fragile : left.Fragile mainManners bad)
    (follows : (following false false False).Holds bad post left right)
    {budget budget' : Nat} (room : budget ≤ budget') {choices : List Nat}
    {ending : α} (finished : ((Machine.start budget left).run (setup host)
      choices).result? = some ending) (good : ¬ bad ending)
    (only : OnlyPrints
      ((Machine.start budget left).run (setup host) choices).shared.calls) :
    ∃ lines ending', post (printedLines ((Machine.start budget left).run
        (setup host) choices).shared.calls, ending) (lines, ending') ∧
      (∀ schedule : Nat → Nat, ∃ turns, ((Machine.start budget' right).run
        (setup host) ((List.range turns).map schedule)).result? =
          some ending') ∧
      ∀ choices' other, ((Machine.start budget' right).run (setup host)
          choices').result? = some other →
        other = ending' ∧ printedLines ((Machine.start budget' right).run
          (setup host) choices').shared.calls = lines ∧
        ((Machine.start budget' right).run (setup host)
            choices').shared.budget + budget =
          ((Machine.start budget left).run (setup host)
            choices).shared.budget + budget' := by
  have orderly := setup_printing prints.starts
  have obliges := prints.obliges
  obtain ⟨units, alone, spent⟩ := Machine.run_undisturbed orderly fragile
    choices finished good (prints.granted choices only)
  obtain ⟨lines, ending', again, held⟩ := follows.2 _ _ _ alone good
  have enough : units ≤ budget' := by omega
  refine ⟨lines, ending', held, ?_, ?_⟩
  · intro schedule
    exact Machine.schedule_settled orderly obliges again enough schedule
  · intro choices' other finished'
    have settled := Machine.run_settled orderly obliges choices'
      (Machine.settled_start again enough)
    obtain ⟨rfl, shown, rest⟩ := settled.result finished'
    refine ⟨rfl, shown, ?_⟩
    omega

section Workers

variable (parallel : comparison.serial = false)
  (strict : comparison.strict = true)

include parallel strict

/-- A worker's prints fill its buffer. -/
theorem following_print :
    PrintsAlike (following true true True) comparison true := by
  intro situation world point text inside before before' states
  have runtime := states.runtime
  simp only [RuntimeRel, parallel, Bool.false_eq_true, if_false] at runtime
  obtain ⟨hosts, forks, buffers⟩ := runtime
  have buffered := states.buffer.trans inside
  unfold Interp.print
  obtain ⟨missing, missing'⟩ | ⟨buffer, buffer', found, found', related⟩ :=
    optionRel_cases buffers
  · rw [missing] at buffered
    cases buffered
  · simp only [found, found']
    obtain ⟨full, _⟩ | ⟨after, after', pushed, pushed', grown⟩ :=
      related.push text
    · rw [full]
      exact holds_failed strict
    · rw [pushed, pushed']
      refine (following true true True).ret
        ⟨world, .refl world, ?_, trivial, ?_⟩
      · refine { states with
          runtime := ?_
          buffer := ?_ }
        · simp only [RuntimeRel, parallel, Bool.false_eq_true, if_false]
          exact ⟨hosts, forks, .some grown⟩
        · rw [← states.buffer, found]
          rfl
      · simp [Shown, parallel]

theorem following_evaluator (clock : Nat) :
    Similar (following true true True) comparison true (evaluator clock)
      (evaluator clock) := by
  have supports : Supports (following true true True) comparison :=
    following_supports strict true true True
  have prints : PrintsAlike (following true true True) comparison true :=
    following_print parallel strict
  apply similar_evaluator supports prints
  intro clock similar
  have runs : JobsAlike (following true true True) comparison true
      (evaluator clock) (evaluator clock) := by
    apply alike_runJobs parallel fun _ => similar
    intro outside
    cases outside
  intro situation world env env'
  exact parallelAlike_batches parallel supports prints runs similar.clock
    (.inl rfl)

/-- Related workers do the same when they are left alone. -/
theorem following_executeWorker {job job' : Worker}
    (related : WorkerRel comparison job job') :
    workerManners.Follows workerManners True (Hinders comparison)
      (fun left right => right.1 = left.1 ∧
        ResultRel OutcomeRel left.2 right.2)
      (executeWorker (evaluator job.clock) job)
      (executeWorker (evaluator job'.clock) job') := by
  rw [related.clock]
  exact holds_executeWorker parallel
    (following_evaluator parallel strict job.clock) related

theorem workerThread_fragile {job job' : Worker}
    (related : WorkerRel comparison job job') :
    (workerThread job).Fragile workerManners WorkerEnd.Fails := by
  have fragile :=
    (following_executeWorker parallel strict related).1 trivial
  unfold workerThread
  apply fragile.bind
  · rintro result ⟨_, fails⟩
    cases result with
    | ok outcome => exact fails outcome rfl
    | error reason => cases reason <;> trivial
  · intro units lines result undisturbed
    trivial

end Workers

end

end NetLang
