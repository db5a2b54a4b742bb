import NetLang.Theory.Framing
import NetLang.Theory.Keeping

/-!
# The context and the output of every run

The two inductions over the evaluator, put together: what a computation puts
back, and what holds of every interpreter that a run passes through.
-/

namespace NetLang

open Interp

/-- What a computation puts back, and what it may add to the arenas. -/
structure Balanced (before after : Interpreter) : Prop where
  expressionDepth : after.expressionDepth = before.expressionDepth
  callStack : after.callStack = before.callStack
  returnType : after.returnType = before.returnType
  currentSpan : after.currentSpan = before.currentSpan
  functions : before.functions <+: after.functions
  bindings : ∀ (id : Nat) (binding : Binding),
    before.bindings[id]? = some binding →
      ∃ kept, after.bindings[id]? = some kept ∧
        kept.annotated = binding.annotated ∧ kept.mutable = binding.mutable

theorem Frame.balanced {before after : Interpreter}
    (frame : Frame before after) : Balanced before after where
  expressionDepth := frame.expressionDepth
  callStack := frame.callStack
  returnType := frame.returnType
  currentSpan := frame.currentSpan
  functions := frame.functions
  bindings := by
    intro id binding found
    obtain ⟨kept, atKept, same⟩ := frame.bindings id binding found
    exact ⟨kept, atKept, same.annotated, same.mutable⟩

/-- Whatever its host and its workers answer, a computation ends balanced. -/
def Balances {α : Type} (comp : Interp α) (state : Interpreter) : Prop :=
  wp (isolation True) comp (fun _ after => Balanced state after) state

theorem Frames.balances {α : Type} {comp : Interp α} {state : Interpreter}
    (frames : Frames True comp) (ready : Ready True state) :
    Balances comp state :=
  wp_mono (frames state ready) fun _ _ held => held.rel.balanced

theorem Observation.Orderly.states {note : Observation}
    (orderly : note.Orderly) :
    ∀ state ∈ note.states, NetLang.Orderly state := by
  cases note with
  | evaluating point node env state
  | storing point id selectors value state | entering point node state =>
      intro shown member
      rw [Observation.states, List.mem_singleton] at member
      exact member ▸ orderly
  | executing point node env state =>
      intro shown member
      rw [Observation.states, List.mem_singleton] at member
      exact member ▸ orderly.1
  | _ => simpa [Observation.states, Observation.Orderly] using orderly

/-- The states around a computation that has ended. -/
def Observation.ended : Observation → Option (Interpreter × Interpreter)
  | .evaluating _ _ _ _ | .executing _ _ _ _ | .storing _ _ _ _ _
  | .entering _ _ _ => none
  | .evaluated _ _ _ before _ after | .executed _ _ _ before _ after
  | .returned _ before _ after | .assigned _ _ _ _ _ before _ after
  | .joined _ before _ after => some (before, after)

theorem Observation.Framed.balanced {note : Observation}
    {before after : Interpreter} (framed : note.Framed)
    (ended : note.ended = some (before, after)) : Balanced before after := by
  cases note with
  | evaluating point node env state => cases ended
  | executing point node env state => cases ended
  | storing point id selectors value state => cases ended
  | entering point node state => cases ended
  | executed point node env first result last =>
      cases ended
      exact framed.2.1.balanced
  | joined point first result last =>
      cases ended
      exact framed.2.frame.balanced
  | evaluated point node env first result last =>
      cases ended
      exact framed.2.balanced
  | returned function first result last =>
      cases ended
      exact framed.2.balanced
  | assigned point target env id selectors first result last =>
      cases ended
      exact framed.2.balanced

section Runs

variable [Formatting] (host : Host effects) (clock identity : Nat)
  (limits : Limits) (program : Program) (choices : List Nat)

/-- The context is balanced: from every state that has the invariant of runs,
each function of the interpreter puts the context back and lets the arenas
grow, however it ends.  The states of every run have this invariant, what
ends in a run is balanced, and statements are executed at depth zero. -/
theorem run_balances_context :
    (∀ state, Ready True state →
      ∀ clock point (env : Environment), env ≠ [] →
        (∀ node, Balances
          ((evaluator clock).expression point node env) state) ∧
        (∀ node, Balances (target (evaluator clock) env point node) state) ∧
        (∀ list, Balances
          (statements (evaluator clock) point list env) state) ∧
        (∀ node, Balances ((evaluator clock).body point node env) state) ∧
        (∀ callee arguments, Balances
          (callValue (evaluator clock) point callee arguments) state)) ∧
    let notes := (runOf host clock identity limits program choices).shared.notes
    (∀ note ∈ notes, ∀ state ∈ note.states, Ready True state) ∧
    (∀ note ∈ notes, ∀ before after,
      note.ended = some (before, after) → Balanced before after) ∧
    (∀ point node env state,
      Observation.executing point node env state ∈ notes →
        state.expressionDepth = 0) := by
  have framed := runOf_framed host clock identity limits program choices
  have orderly := runOf_orderly host clock identity limits program choices
  refine ⟨?_, ?_, ?_, ?_⟩
  · intro state ready clock point env within
    have evaluates := evaluator_framed clock
    obtain ⟨scope, outer, rfl⟩ := List.exists_cons_of_ne_nil within
    refine ⟨?_, ?_, ?_, ?_, ?_⟩
    · exact fun node =>
        (evaluates.expression True point node _).balances ready
    · exact fun node =>
        (frames_target evaluates _ point node).balances ready
    · exact fun list =>
        (frames_statements evaluates point list scope outer).balances ready
    · exact fun node =>
        (evaluates.body True point node scope outer).balances ready
    · exact fun callee arguments =>
        (frames_callValue evaluates point callee arguments).balances ready
  · intro note member state shown
    exact ⟨(framed note member).isolated state shown,
      ((orderly note member).states state shown).inside, fun _ => trivial⟩
  · exact fun note member before after => (framed note member).balanced
  · exact fun point node env state member => (orderly _ member).2

/-- The output of workers is accounted for.  In every run, the counter of
each buffer is the number of bytes that it holds and is within the limit; so
it is after any sequence of prints.  A print is accepted when it keeps the
sum within the limit, and changes nothing otherwise; the lines of an inner
worker are replayed as such prints, up to the first that is refused. -/
theorem worker_output_accounted :
    (∀ note ∈
        (runOf host clock identity limits program choices).shared.notes,
      ∀ state ∈ note.states, ∀ buffer,
      state.runtime.buffer = some buffer → buffer.Accounted ∧
        buffer.outputLimit = state.limits.parallelOutputBytes) ∧
    (∀ (limit : Nat) (lines : List String),
      (lines.foldl WorkerBuffer.attempt ⟨[], 0, limit⟩).Accounted ∧
      (lines.foldl WorkerBuffer.attempt ⟨[], 0, limit⟩).outputLimit =
        limit) ∧
    (∀ point text state (buffer : WorkerBuffer),
      state.runtime.buffer = some buffer → buffer.Accounted →
      buffer.outputLimit < 2 ^ 64 →
        ∃ result next,
          print point text state = .ret (result, state.withBuffer next) ∧
          (result = .ok () ↔ bufferedBytes (buffer.output ++ [text]) ≤
            buffer.outputLimit) ∧
          (result = .ok () → next.output = buffer.output ++ [text]) ∧
          (result ≠ .ok () → next = buffer)) ∧
    (∀ point lines state (buffer : WorkerBuffer),
      state.runtime.buffer = some buffer →
        ∃ lost accepted,
          deliverLines point lines state = .ret (.ok lost, state.withBuffer
            (accepted.foldl WorkerBuffer.attempt buffer)) ∧
          (accepted.foldl WorkerBuffer.attempt buffer).output =
            buffer.output ++ accepted ∧
          accepted <+: lines ∧ (lost = none ↔ accepted = lines) ∧
          (buffer.Accounted → buffer.outputLimit < 2 ^ 64 → lost ≠ none →
            ∃ line rest, lines = accepted ++ line :: rest ∧
              buffer.outputLimit <
                bufferedBytes (buffer.output ++ accepted ++ [line]))) := by
  have orderly := runOf_orderly host clock identity limits program choices
  refine ⟨?_, ?_, ?_, ?_⟩
  · exact fun note member state shown =>
      ((orderly note member).states state shown).accounted
  · exact fun limit lines => (WorkerBuffer.accounted_empty limit).attempts lines
  · intro point text state buffer buffered accounted sized
    obtain ⟨result, printed, accepted⟩ := print_buffered point text buffered
    refine ⟨result, _, printed,
      accepted.trans (WorkerBuffer.push_isSome_iff accounted sized), ?_, ?_⟩
    · intro done
      obtain ⟨next, pushed⟩ := Option.isSome_iff_exists.mp (accepted.mp done)
      rw [WorkerBuffer.attempt, pushed]
      obtain ⟨rfl, _⟩ := WorkerBuffer.push_eq_some_iff.mp pushed
      rfl
    · intro refused
      have lost : buffer.push text = none :=
        Option.not_isSome_iff_eq_none.mp fun pushed =>
          refused (accepted.mpr pushed)
      rw [WorkerBuffer.attempt, lost]
      rfl
  · intro point lines state buffer buffered
    obtain ⟨lost, delivered, complete⟩ :=
      deliverLines_buffered point lines buffered
    obtain ⟨front, folded, output⟩ := WorkerBuffer.replay_spec lines buffer
    have cut : buffer.Accounted → buffer.outputLimit < 2 ^ 64 → lost ≠ none →
        ∃ line rest, lines = (buffer.replay lines).2 ++ line :: rest ∧
          buffer.outputLimit < bufferedBytes
            (buffer.output ++ (buffer.replay lines).2 ++ [line]) :=
      fun accounted sized missing => WorkerBuffer.replay_cut accounted sized
        lines fun whole => missing (complete.mpr whole)
    rw [folded] at delivered output
    exact ⟨lost, _, delivered, output, front, complete, cut⟩

end Runs

end NetLang
