import NetLang.Interpreter.Entry
import NetLang.Relational.Mirrors
import NetLang.Relational.Reports
import NetLang.Syntax.Unlocated
import NetLang.Theory.Foreign

/-!
# What locations and annotations do not change

Locations are transparent: a program without them has the same errors, makes
the same calls of its host, ends the same way after as many steps, and has the
same dump.  Annotations only add checks: without them, a program that ended
well does so again, in the same way.
-/

namespace NetLang

variable [Formatting]

section Calls

omit [Formatting] in
theorem HostCall.Rel.eq : ∀ {call call' : HostCall},
    call.Rel .equality call' → call' = call
  | .listenTcp _, .listenTcp _, same | .bindUdp _, .bindUdp _, same
  | .print _, .print _, same => by
      cases (same : _ = _)
      rfl
  | .accept _, .accept _, same | .localAddress _, .localAddress _, same
  | .close _, .close _, same | .receive _, .receive _, same => by
      rw [Value.Rel.eq same]
  | .setTimeout _ _, .setTimeout _ _, ⟨same, rfl⟩ => by
      rw [Value.Rel.eq same]
  | .fork, .fork, _ => rfl
  | .connect _ _ _, .connect _ _ _, ⟨rfl, rfl, rfl⟩ => rfl
  | .send _ _ _, .send _ _ _, ⟨same, data, rfl⟩ => by
      rw [Value.Rel.eq same, Value.Rel.eq data]
  | .request _ _ _, .request _ _ _, ⟨rfl, rfl, same⟩ => by
      rw [Value.Rel.eq same]

omit [Formatting] in
theorem HostCall.valueOf_injective : ∀ call : HostCall,
    Function.Injective call.valueOf
  | .listenTcp _ | .accept _ | .bindUdp _ | .connect _ _ _ | .send _ _ _
  | .receive _ | .request _ _ _ => fun _ _ same => same
  | .localAddress _ => fun _ _ same => Value.string.inj same
  | .setTimeout _ _ | .print _ | .close _ | .fork => fun _ _ _ => rfl

omit [Formatting] in
theorem HostCall.ReplyRel.eq {call : HostCall}
    {reply reply' : Except String call.Answer}
    (related : call.ReplyRel .equality call reply reply') :
    reply' = reply := by
  match reply, reply', related with
  | .ok _, .ok _, same =>
      exact congrArg Except.ok
        (call.valueOf_injective (Value.Rel.eq same)).symm
  | .error _, .error _, same => exact congrArg Except.error (Eq.symm same)

variable {comparison : Comparison} (same : comparison.token = Eq)

include same

omit [Formatting] in
/-- Under one identity, corresponding histories are equal. -/
theorem HistoryRel.eq {history history' : History effects}
    (related : HistoryRel comparison.mirror history history') :
    history' = history := by
  induction related with
  | nil => rfl
  | @cons entry entry' rest rest' head tail induction =>
      obtain ⟨⟨host, call⟩, reply⟩ := entry
      obtain ⟨⟨host', call'⟩, reply'⟩ := entry'
      obtain ⟨⟨hosts, calls⟩, replies⟩ := head
      simp only [Comparison.mirror, same] at calls replies
      cases (hosts : host' = host)
      cases HostCall.Rel.eq calls
      cases HostCall.ReplyRel.eq replies
      rw [induction]

omit [Formatting] in
theorem Host.mirrors_refl (host : Host effects) :
    host.Mirrors comparison.mirror host where
  answer := by
    rintro history history' histories ⟨id, call⟩ ⟨id', call'⟩ ⟨hosts, calls⟩
    simp only [same] at calls
    cases (hosts : id' = id)
    cases HostCall.Rel.eq calls
    rw [HistoryRel.eq same histories]
    simp only [Comparison.mirror, same]
    cases host.answer history (id, call) with
    | none => exact .none
    | some reply =>
        exact .some (agree_refl (fun _ => Value.rel_refl _)
          (Except.map call.valueOf reply))
  refuse := by
    intro history history' histories
    rw [HistoryRel.eq same histories]

end Calls

section Locations

/-- The comparison with a program without its locations. -/
def unlocating : Comparison where
  rewriting := stripping
  strict := false
  sameLimits := true
  token := Eq
  lenient := fun _ => ⟨rfl, rfl, rfl⟩

/-- The same value, or an error with the same message and call stack. -/
def SameEnding (left right : Ending) : Prop :=
  match left.1, right.1 with
  | .ok value, .ok value' => value' = value
  | .error (.error error), .error (.error error') =>
      error'.message = error.message ∧ error'.callStack = error.callStack
  | .error .panic, .error .panic => True
  | .error .outOfFuel, .error .outOfFuel => True
  | _, _ => False

/-- The same calls of the host, the same number of steps left, and the same
ending, if there is one. -/
structure SameRun (left right : Machine effects Ending) : Prop where
  calls : right.shared.calls = left.shared.calls
  budget : right.shared.budget = left.shared.budget
  ending : Option.Rel SameEnding left.result? right.result?

/-- Both are rejected for the same reasons, or run in the same way. -/
def SameExecution : Except ExecutionError (Machine effects Ending) →
    Except ExecutionError (Machine effects Ending) → Prop
  | .ok run, .ok run' => SameRun run run'
  | .error (.semantic errors), .error (.semantic errors') =>
      errors'.map SemanticError.unlocated = errors.map SemanticError.unlocated
  | .error (.runtime error), .error (.runtime error') =>
      error'.message = error.message ∧ error'.callStack = error.callStack
  | _, _ => False

omit [Formatting] in
theorem SameEnding.of_endings {left right : Ending}
    (related : unlocating.endings left right) : SameEnding left right := by
  obtain ⟨result, final⟩ := left
  obtain ⟨result', final'⟩ := right
  match result, result', related with
  | .ok _, .ok _, same => exact (Value.Rel.eq same).symm
  | .error (.error _), .error (.error _), ⟨kind, stack⟩ =>
      exact ⟨congrArg ErrorKind.message kind, stack⟩
  | .error .panic, .error .panic, _ => trivial
  | .error .outOfFuel, .error .outOfFuel, _ => trivial

theorem runOf_strip (host : Host effects) (clock identity : Nat)
    (limits : Limits) (program : Program) (choices : List Nat) :
    SameRun (runOf host clock identity limits program choices)
      (runOf host clock identity limits program.strip choices) := by
  have related : MachineRel unlocating.mirror (Failed unlocating)
      unlocating.endings (runOf host clock identity limits program choices)
      (runOf host clock identity limits program.strip choices) :=
    runOf_mirrors rfl rfl (Host.mirrors_refl rfl host) rfl
      (by rintro a b _ _ rfl rfl; rfl) clock limits program choices
  have lenient : ¬ unlocating.strict = true := nofun
  have replies : ∀ operation : effects.Call,
      Nonempty (effects.Reply operation) := fun _ => ⟨.error ""⟩
  have good : ∀ ending : Ending, ¬ Failed unlocating ending :=
    fun _ failed => lenient failed.1
  have fine : ∀ done, ¬ unlocating.mirror.failed done :=
    fun _ failed => lenient failed.1
  obtain ⟨shareds, results⟩ := related.always replies lenient good fine
  exact ⟨HistoryRel.eq rfl shareds.calls, shareds.budget,
    optionRel_mono results fun _ _ => SameEnding.of_endings⟩

/-- Locations change neither what is wrong with a program, nor how it is
executed, nor how it is shown. -/
theorem locations_transparent (program : Program) :
    (analyze program.strip).map SemanticError.unlocated =
        (analyze program).map SemanticError.unlocated ∧
      (∀ (host : Host effects) (clock identity : Nat) (limits : Limits)
        (choices : List Nat), SameExecution
          (executeWithLimits host clock identity limits program choices)
          (executeWithLimits host clock identity limits program.strip
            choices)) ∧
      program.strip.pretty = program.pretty := by
  have errors := analyze_strip program
  refine ⟨errors, ?_, program.pretty_strip⟩
  intro host clock identity limits choices
  unfold executeWithLimits
  cases found : analyze program with
  | nil =>
      have accepted : analyze program.strip = [] := by
        simpa [found] using errors
      rw [accepted]
      dsimp only
      split
      · exact runOf_strip host clock identity limits program choices
      · exact ⟨rfl, rfl⟩
  | cons first rest =>
      rw [found] at errors
      cases found' : analyze program.strip with
      | nil =>
          rw [found'] at errors
          cases errors
      | cons first' rest' =>
          rw [found'] at errors
          exact errors

end Locations

section Annotations

/-- The comparison with a program without its annotations.  It ends where the
program fails. -/
def erasing : Comparison where
  rewriting := ⟨false, true, false⟩
  strict := true
  sameLimits := true
  token := Eq
  lenient := nofun

/-- A run that ends well does so without annotations. -/
theorem runOf_erase {host : Host effects} {clock identity : Nat}
    {limits : Limits} {program : Program} {choices : List Nat} {value : Value}
    {final : Interpreter}
    (finished : (runOf host clock identity limits program choices).result? =
      some (.ok value, final)) :
    ∃ final', (runOf host clock identity limits program.erase
        choices).result? = some (.ok value, final') ∧
      (runOf host clock identity limits program.erase choices).shared.calls =
        (runOf host clock identity limits program choices).shared.calls ∧
      (runOf host clock identity limits program.erase choices).shared.budget =
        (runOf host clock identity limits program choices).shared.budget := by
  have related : MachineRel erasing.mirror (Failed erasing) erasing.endings
      (runOf host clock identity limits program choices)
      (runOf host clock identity limits program.erase choices) :=
    runOf_mirrors rfl rfl (Host.mirrors_refl rfl host) rfl
      (by rintro a b _ _ rfl rfl; rfl) clock limits program choices
  have good : ¬ Failed erasing (.ok value, final) := by
    rintro ⟨_, reason, failed⟩
    cases failed
  obtain ⟨shareds, ⟨result', final'⟩, finished', endings⟩ :=
    related.result finished good
  cases result' with
  | error reason => exact endings.elim
  | ok value' =>
      cases Value.Rel.eq (endings : value.Rel .equality value')
      exact ⟨final', finished', HistoryRel.eq rfl shareds.calls,
        shareds.budget⟩

/-- A program that is accepted is so without annotations, and whenever it
runs to a value, it does so without them: it makes the same calls of its host
and takes the same number of steps. -/
theorem annotations_optional {program : Program}
    (accepted : analyze program = []) :
    analyze program.erase = [] ∧
      ∀ (host : Host effects) (clock identity : Nat) (limits : Limits)
        (choices : List Nat) (run : Machine effects Ending) (value : Value)
        (final : Interpreter),
        executeWithLimits host clock identity limits program choices =
          .ok run → run.result? = some (.ok value, final) →
        ∃ run' final', executeWithLimits host clock identity limits
            program.erase choices = .ok run' ∧
          run'.result? = some (.ok value, final') ∧
          run'.shared.calls = run.shared.calls ∧
          run'.shared.budget = run.shared.budget := by
  have erased : analyze program.erase = [] :=
    analyze_rewriting ⟨false, true, false⟩ program accepted
  refine ⟨erased, ?_⟩
  intro host clock identity limits choices run value final started finished
  unfold executeWithLimits at started ⊢
  rw [accepted] at started
  rw [erased]
  dsimp only at started ⊢
  split at started
  · next sensible =>
      cases started
      obtain ⟨final', finished', calls, budget⟩ := runOf_erase finished
      exact ⟨_, final', if_pos sensible, finished', calls, budget⟩
  · cases started

end Annotations

section Example

/-- A function with an annotated result and an annotated variable. -/
def annotatedProgram : Program :=
  ⟨[.function "main" [] (some ⟨"int", none⟩) (.block
    [.let "x" (some ⟨"int", none⟩) (.integer 1),
      .return (some (.identifier "x"))])]⟩

omit [Formatting] in
theorem returnedInteger_some {run : Machine effects Ending} {value : Int64}
    (returned : returnedInteger run = some value) :
    ∃ final, run.result? = some (.ok (.integer value), final) := by
  unfold returnedInteger at returned
  split at returned
  · next final found =>
      cases returned
      exact ⟨final, found⟩
  · cases returned

omit [Formatting] in
theorem annotations_optional_main :
    let _formatting : Formatting := plainFormatting
    analyze annotatedProgram = [] ∧ analyze annotatedProgram.erase = [] ∧
      ∃ run final, executeWithLimits (storingHost .null) 9 0 {}
          annotatedProgram.erase (List.replicate 30 0) = .ok run ∧
        run.result? = some (.ok (.integer 1), final) := by
  intro _formatting
  have accepted : analyze annotatedProgram = [] := by decide +kernel
  have returned : returnedInteger (runOf (storingHost .null) 9 0 {}
      annotatedProgram (List.replicate 30 0)) = some 1 := by decide +kernel
  obtain ⟨final, finished⟩ := returnedInteger_some returned
  have started : executeWithLimits (storingHost .null) 9 0 {}
      annotatedProgram (List.replicate 30 0) = .ok (runOf (storingHost .null)
        9 0 {} annotatedProgram (List.replicate 30 0)) := by
    unfold executeWithLimits
    rw [accepted]
    exact if_pos (by decide)
  obtain ⟨erased, runs⟩ := annotations_optional accepted
  obtain ⟨run, final', again, result, _⟩ :=
    runs _ _ _ _ _ _ _ _ started finished
  exact ⟨accepted, erased, run, final', again, result⟩

end Example

end NetLang
