import NetLang.Interpreter.Execute

/-!
# Function handles of other executions

A function handle is an index into the arena of the execution that calls it.
Where it was created does not matter: a call fails before it enters a body
exactly when this arena refuses the handle.
-/

namespace NetLang

open Interp

variable [Formatting]

/-- An argument that its parameter does not admit. -/
def Interpreter.Mismatch (state : Interpreter)
    (pair : Parameter × Value) : Prop :=
  ∃ kind, state.types.checkValueType
    (pair.1.annotated.bind fun annotated =>
      state.types.resolve annotated.name) pair.2 = .error (.kind kind)

/-- The arena has no function that the handle can be called as. -/
def Interpreter.Refuses (state : Interpreter) (id : Nat)
    (arguments : List Value) : Prop :=
  state.limits.callDepth ≤ state.callStack.length ∨
    ∀ function, state.functions[id]? = some function →
      arguments.length ≠ function.parameters.length ∨
        ∃ pair ∈ function.parameters.zip arguments, state.Mismatch pair

/-- The call fails and enters no body, however bodies are executed. -/
def Interpreter.CallFails (state : Interpreter) (id : Nat)
    (arguments : List Value) : Prop :=
  ∀ (given : Evaluator) (point : Point), ∃ error after,
    callValue given point (.function id) arguments state =
      .ret (.error (.error error), after)

omit [Formatting] in
/-- A check against an annotation does not panic. -/
theorem annotated_refuses {types : TypeRegistry}
    {annotated : Option TypeAnnotation} {value : Value} {fault : Fault}
    (refused : types.checkValueType (annotated.bind fun annotated =>
      types.resolve annotated.name) value = .error fault) :
    ∃ kind, fault = .kind kind := by
  cases fault with
  | kind kind => exact ⟨kind, rfl⟩
  | panic =>
      refine absurd refused (TypeRegistry.checkValueType_defined ?_)
      intro ty named
      obtain ⟨_, _, found⟩ := Option.bind_eq_some_iff.mp named
      exact TypeRegistry.defines_of_resolve found

omit [Formatting] in
theorem bindParameters_refused (point : Point) (parameters : List Parameter)
    (arguments : List Value) (bound : NameMap Nat) (state : Interpreter)
    (mismatch : ∃ pair ∈ parameters.zip arguments, state.Mismatch pair) :
    ∃ error after, bindParameters point parameters arguments bound state =
      .ret (.error (.error error), after) := by
  induction parameters generalizing arguments bound state with
  | nil =>
      obtain ⟨pair, member, _⟩ := mismatch
      cases member
  | cons parameter rest induction =>
      cases arguments with
      | nil =>
          obtain ⟨pair, member, _⟩ := mismatch
          cases member
      | cons value values =>
          cases checked : state.types.checkValueType
            (parameter.annotated.bind fun annotated =>
              state.types.resolve annotated.name) value with
          | error fault =>
              obtain ⟨kind, rfl⟩ := annotated_refuses checked
              refine ⟨failure point kind state, state, ?_⟩
              change (check point _ value state).bind _ = _
              rw [check, checked]
              rfl
          | ok done =>
              have later : ∃ pair ∈ rest.zip values, state.Mismatch pair := by
                obtain ⟨pair, member, kind, refused⟩ := mismatch
                rcases List.mem_cons.mp member with rfl | inside
                · rw [checked] at refused
                  cases refused
                · exact ⟨pair, inside, kind, refused⟩
              obtain ⟨error, after, fails⟩ := induction values
                (NameMap.insert bound parameter.name state.bindings.length)
                { state with bindings := state.bindings ++
                  [⟨parameter.annotated.bind fun annotated =>
                    state.types.resolve annotated.name, some value, true⟩] }
                later
              refine ⟨error, after, Eq.trans ?_ fails⟩
              change (check point _ value state).bind _ = _
              rw [check, checked]
              rfl

omit [Formatting] in
theorem bindParameters_accepted (point : Point) (parameters : List Parameter)
    (arguments : List Value) (bound : NameMap Nat) (state : Interpreter)
    (fine : ∀ pair ∈ parameters.zip arguments, ¬ state.Mismatch pair) :
    ∃ scope after, bindParameters point parameters arguments bound state =
      .ret (.ok scope, after) := by
  induction parameters generalizing arguments bound state with
  | nil => exact ⟨bound, state, rfl⟩
  | cons parameter rest induction =>
      cases arguments with
      | nil => exact ⟨bound, state, rfl⟩
      | cons value values =>
          cases checked : state.types.checkValueType
            (parameter.annotated.bind fun annotated =>
              state.types.resolve annotated.name) value with
          | error fault =>
              obtain ⟨kind, rfl⟩ := annotated_refuses checked
              exact absurd ⟨kind, checked⟩ (fine _ List.mem_cons_self)
          | ok done =>
              obtain ⟨scope, after, returns⟩ := induction values
                (NameMap.insert bound parameter.name state.bindings.length)
                { state with bindings := state.bindings ++
                  [⟨parameter.annotated.bind fun annotated =>
                    state.types.resolve annotated.name, some value, true⟩] }
                fun pair member => fine pair (List.mem_cons_of_mem _ member)
              refine ⟨scope, after, Eq.trans ?_ returns⟩
              change (check point _ value state).bind _ = _
              rw [check, checked]
              rfl

/-- A call of any handle, of whatever execution, enters a body unless the
receiving execution refuses the handle. -/
theorem callFails_iff_refuses (state : Interpreter) (id : Nat)
    (arguments : List Value) :
    state.CallFails id arguments ↔ state.Refuses id arguments := by
  constructor
  · intro fails
    by_contra accepted
    obtain ⟨shallow, accepted⟩ := not_or.mp accepted
    push Not at accepted
    obtain ⟨function, found, count, fine⟩ := accepted
    obtain ⟨scope, after, bound⟩ := bindParameters_accepted [] function.parameters
      arguments [] state fine
    obtain ⟨error, final, failed⟩ := fails exhausted []
    have entered : callValue exhausted [] (.function id) arguments state =
        enterFunction exhausted [] function scope after := by
      change (Interp.function [] id arguments.length state).bind _ = _
      rw [Interp.function, if_neg shallow, found]
      dsimp only
      rw [if_neg (not_not.mpr count)]
      change (bindParameters [] function.parameters arguments [] state).bind _
        = _
      rw [bound]
      rfl
    rw [entered] at failed
    cases failed
  · intro refused given point
    rcases refused with deep | refused
    · refine ⟨failure point .callDepth state, state, ?_⟩
      change (Interp.function point id arguments.length state).bind _ = _
      rw [Interp.function, if_pos deep]
      rfl
    · by_cases deep : state.limits.callDepth ≤ state.callStack.length
      · refine ⟨failure point .callDepth state, state, ?_⟩
        change (Interp.function point id arguments.length state).bind _ = _
        rw [Interp.function, if_pos deep]
        rfl
      · cases found : state.functions[id]? with
        | none =>
            refine ⟨failure point .invalidFunctionHandle state, state, ?_⟩
            change (Interp.function point id arguments.length state).bind _ = _
            rw [Interp.function, if_neg deep, found]
            rfl
        | some function =>
            by_cases count : arguments.length = function.parameters.length
            · obtain different | mismatch := refused function found
              · exact absurd count different
              · obtain ⟨error, after, fails⟩ := bindParameters_refused point
                  function.parameters arguments [] state mismatch
                refine ⟨error, after, ?_⟩
                change (Interp.function point id arguments.length state).bind _
                  = _
                rw [Interp.function, if_neg deep, found]
                dsimp only
                rw [if_neg (not_not.mpr count)]
                change (bindParameters point function.parameters arguments []
                  state).bind _ = _
                rw [fails]
                rfl
            · refine ⟨failure point (.argumentCount function.name
                function.parameters.length arguments.length) state, state, ?_⟩
              change (Interp.function point id arguments.length state).bind _
                = _
              rw [Interp.function, if_neg deep, found]
              dsimp only
              rw [if_pos count]
              rfl

omit [Formatting]

section Example

/-- A program that hands its function to the host. -/
def givingProgram : Program := ⟨[
  .function "give" [] none (.block [.return (some (.integer 1))]),
  .expression (.send .null (.identifier "give") none)]⟩

/-- A program that calls what it receives from the host. -/
def callingProgram : Program := ⟨[
  .function "mine" [] none (.block [.return (some (.integer 2))]),
  .function "main" [] none (.block [
    .return (some (.call (.receive .null) []))])]⟩

/-- A host that takes every value and hands back the same one. -/
def storingHost (stored : Value) : Host effects where
  answer _ call :=
    match call with
    | (_, .send _ _ _) => some (.ok .null)
    | (_, .receive _) => some (.ok stored)
    | _ => some (.error "unsupported")
  refuse _ _ := none

/-- The last value that was sent. -/
def lastSent : History effects → Value
  | ⟨(_, .send _ data _), _⟩ :: _ => data
  | _ => .null

/-- Conversions of values to text, which these programs do not use. -/
@[reducible] def plainFormatting : Formatting :=
  ⟨fun _ => "", fun text => text⟩

def givingRun : Machine effects Ending :=
  @runOf plainFormatting (storingHost .null) 9 0 {} givingProgram
    (List.replicate 30 0)

def callingRun : Machine effects Ending :=
  @runOf plainFormatting (storingHost (lastSent givingRun.shared.calls)) 9 1
    {} callingProgram (List.replicate 50 0)

def Value.handle? : Value → Option Nat
  | .function id => some id
  | _ => none

/-- The integer that a run has returned. -/
def returnedInteger (machine : Machine effects Ending) : Option Int64 :=
  match machine.result? with
  | some (.ok (.integer value), _) => some value
  | _ => none

/-- The handle of one execution runs a function of another one. -/
theorem foreign_handle_runs :
    (lastSent givingRun.shared.calls).handle? = some 0 ∧
      returnedInteger callingRun = some 2 := by
  decide +kernel

end Example

end NetLang
