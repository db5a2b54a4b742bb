import NetLang.Interpreter.State

/-!
# The interpreter monad

State, errors and effects.  The combinators that change a part of the state
for one computation put it back on success and on failure.
-/

namespace NetLang

/-- A computation of an interpreter. -/
def Interp (α : Type) :=
  Interpreter → Comp effects (Result α × Interpreter)

namespace Interp

variable {α β : Type}

protected def pure (value : α) : Interp α :=
  fun state => .ret (.ok value, state)

def stop (reason : Stop) : Interp α :=
  fun state => .ret (.error reason, state)

protected def bind (comp : Interp α) (f : α → Interp β) : Interp β :=
  fun state => (comp state).bind fun
    | (.ok value, after) => f value after
    | (.error reason, after) => .ret (.error reason, after)

instance : Monad Interp where
  pure := Interp.pure
  bind := Interp.bind

theorem bind_pure (comp : Interp α) : (comp >>= pure) = comp := by
  funext state
  refine Eq.trans (congrArg (comp state).bind (funext ?_))
    (Comp.bind_ret _)
  rintro ⟨result, after⟩
  cases result <;> rfl

theorem bind_assoc {γ : Type} (comp : Interp α) (f : α → Interp β)
    (g : β → Interp γ) :
    (comp >>= f) >>= g = comp >>= fun value => f value >>= g := by
  funext state
  refine (Comp.bind_assoc _ _ _).trans (congrArg (comp state).bind ?_)
  funext ⟨result, after⟩
  cases result <;> rfl

def get : Interp Interpreter :=
  fun state => .ret (.ok state, state)

def modify (f : Interpreter → Interpreter) : Interp Unit :=
  fun state => .ret (.ok (), f state)

/-- The error of the given kind, in the current call stack and location. -/
def failure (point : Point) (kind : ErrorKind) (state : Interpreter) :
    RuntimeError :=
  ⟨kind, state.callStack, state.currentSpan, point⟩

def fail (point : Point) (kind : ErrorKind) : Interp α :=
  fun state => .ret (.error (.error (failure point kind state)), state)

@[simp] theorem fail_bind (point : Point) (kind : ErrorKind)
    (f : α → Interp β) : (fail point kind >>= f) = fail point kind :=
  rfl

/-- The result of a pure operation. -/
def lift (point : Point) : Except ErrorKind α → Interp α
  | .ok value => Interp.pure value
  | .error kind => fail point kind

/-- One atomic checked decrement of the shared step counter. -/
def tick (point : Point) : Interp Unit :=
  fun state => .act .tick fun granted =>
    let state := { state with attempts := state.attempts + 1 }
    if granted then .ret (.ok (), state)
    else .ret (.error (.error (failure point .stepLimit state)), state)

/-- Show the state. -/
def observe (note : Interpreter → Observation) : Interp Unit :=
  fun state => .act (.observe (note state)) fun _ => .ret (.ok (), state)

/-- Show the state before a computation, and what it led to after it. -/
def observed (before : Interpreter → Observation)
    (after : Interpreter → Result α → Interpreter → Observation)
    (comp : Interp α) : Interp α :=
  fun state => .act (.observe (before state)) fun _ =>
    (comp state).bind fun (result, final) =>
      .act (.observe (after state result final)) fun _ => .ret (result, final)

/-- Show what a computation led to. -/
def reported (after : Interpreter → Result α → Interpreter → Observation)
    (comp : Interp α) : Interp α :=
  fun state => (comp state).bind fun (result, final) =>
    .act (.observe (after state result final)) fun _ => .ret (result, final)

/-- Change the state on the way in, and on the way out in either case. -/
def around (enter : Interpreter → Interpreter)
    (leave : Interpreter → Interpreter → Interpreter) (comp : Interp α) :
    Interp α :=
  fun state => (comp (enter state)).bind fun (result, after) =>
    .ret (result, leave state after)

/-- Run at a location, if one is given. -/
def withSpan (span : Option Span) : Interp α → Interp α :=
  around (fun state => { state with
      currentSpan := span.or state.currentSpan })
    (fun before after => { after with currentSpan := before.currentSpan })

/-- Change the location of an error. -/
def relocate (locate : Option Span → Option Span) (comp : Interp α) :
    Interp α :=
  fun state => (comp state).bind fun
    | (.error (.error error), after) =>
        .ret (.error (.error { error with span := locate error.span }), after)
    | (result, after) => .ret (result, after)

/-- One level of expression nesting. -/
def nested (point : Point) (comp : Interp α) : Interp α :=
  fun state =>
    if state.limits.expressionDepth ≤ state.expressionDepth then
      fail point .expressionDepth state
    else
      around
        (fun state => { state with
          expressionDepth := state.expressionDepth + 1 })
        (fun _ after => { after with
          expressionDepth := after.expressionDepth - 1 }) comp state

/-- The frame of a call.  Expression nesting inside a callee is separate from
its caller's. -/
def framed (name : String) (returnType : Option ResolvedType) :
    Interp α → Interp α :=
  around
    (fun state => { state with
      callStack := state.callStack ++ [name]
      expressionDepth := 0
      returnType := returnType })
    (fun before after => { after with
      returnType := before.returnType
      expressionDepth := before.expressionDepth
      callStack := after.callStack.dropLast })

/-- An operation of the interpreter's own host. -/
def call (point : Point) (operation : HostCall) : Interp operation.Answer :=
  fun state => .act (.call (state.runtime.host, operation)) fun
    | .ok answer => .ret (.ok answer, state)
    | .error message =>
        .ret (.error (.error (failure point (.host message) state)), state)

/-- A batch of workers on threads of their own. -/
def spawn (jobs : List Worker) :
    Interp (List WorkerEnd × Option String) :=
  fun state => .act (.spawn jobs) fun reply => .ret (.ok reply, state)

end Interp

end NetLang
