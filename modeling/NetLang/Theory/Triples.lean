import NetLang.Interpreter.Execute
import NetLang.Library.ThreadSafety

/-!
# Weakest preconditions of the interpreter

`wp contract comp post state` says that `comp` is safe from `state` under the
contract and establishes `post` of its result and its last state.  There is
one rule for each combinator of the interpreter monad.
-/

namespace NetLang.Interp

variable {α β : Type} {contract : Contract effects}
  {post : Result α → Interpreter → Prop} {state : Interpreter}

def wp (contract : Contract effects) (comp : Interp α)
    (post : Result α → Interpreter → Prop) (state : Interpreter) : Prop :=
  (comp state).Safe contract fun outcome => post outcome.1 outcome.2

/-- The rest of a computation runs on success only. -/
def andThen (contract : Contract effects) (f : α → Interp β)
    (post : Result β → Interpreter → Prop) :
    Result α → Interpreter → Prop
  | .ok value, after => wp contract (f value) post after
  | .error reason, after => post (.error reason) after

@[simp] theorem andThen_ok {f : α → Interp β}
    {post : Result β → Interpreter → Prop} {value : α} :
    andThen contract f post (.ok value) state ↔
      wp contract (f value) post state :=
  Iff.rfl

@[simp] theorem andThen_error {f : α → Interp β}
    {post : Result β → Interpreter → Prop} {reason : Stop} :
    andThen contract f post (.error reason) state ↔
      post (.error reason) state :=
  Iff.rfl

theorem wp_mono {comp : Interp α}
    {weaker : Result α → Interpreter → Prop}
    (safe : wp contract comp post state)
    (implies : ∀ result after, post result after → weaker result after) :
    wp contract comp weaker state :=
  safe.mono fun outcome => implies outcome.1 outcome.2

@[simp] theorem wp_pure {value : α} :
    wp contract (pure value) post state ↔ post (.ok value) state :=
  Iff.rfl

@[simp] theorem wp_stop {reason : Stop} :
    wp contract (stop reason) post state ↔ post (.error reason) state :=
  Iff.rfl

@[simp] theorem wp_fail {point : Point} {kind : ErrorKind} :
    wp contract (fail point kind) post state ↔
      post (.error (.error (failure point kind state))) state :=
  Iff.rfl

@[simp] theorem wp_bind {comp : Interp α} {f : α → Interp β}
    {post : Result β → Interpreter → Prop} :
    wp contract (comp >>= f) post state ↔
      wp contract comp (andThen contract f post) state := by
  refine Iff.trans Comp.safe_bind (iff_of_eq ?_)
  unfold wp
  congr 1
  funext outcome
  obtain ⟨result, after⟩ := outcome
  cases result <;> rfl

@[simp] theorem wp_get {post : Result Interpreter → Interpreter → Prop} :
    wp contract get post state ↔ post (.ok state) state :=
  Iff.rfl

@[simp] theorem wp_modify {f : Interpreter → Interpreter}
    {post : Result Unit → Interpreter → Prop} :
    wp contract (modify f) post state ↔ post (.ok ()) (f state) :=
  Iff.rfl

/-- The state after a step was asked for. -/
def attempted (state : Interpreter) : Interpreter :=
  { state with attempts := state.attempts + 1 }

theorem wp_tick {point : Point} {post : Result Unit → Interpreter → Prop} :
    wp contract (tick point) post state ↔
      post (.ok ()) (attempted state) ∧
        post (.error (.error (failure point .stepLimit (attempted state))))
          (attempted state) := by
  constructor
  · intro safe
    exact ⟨safe.2 true trivial, safe.2 false trivial⟩
  · rintro ⟨granted, denied⟩
    refine ⟨trivial, fun reply _ => ?_⟩
    cases reply
    · exact denied
    · exact granted

theorem wp_reported {after : Interpreter → Result α → Interpreter →
      Observation} {comp : Interp α} :
    wp contract (reported after comp) post state ↔
      wp contract comp (fun result final =>
        contract.note (after state result final) ∧ post result final)
        state := by
  refine Iff.trans Comp.safe_bind (iff_of_eq ?_)
  unfold wp
  congr 1
  funext outcome
  exact propext ⟨fun safe => ⟨safe.1, safe.2 () trivial⟩,
    fun both => ⟨both.1, fun _ _ => both.2⟩⟩

theorem wp_observed {before : Interpreter → Observation}
    {after : Interpreter → Result α → Interpreter → Observation}
    {comp : Interp α} :
    wp contract (observed before after comp) post state ↔
      contract.note (before state) ∧
        wp contract (reported after comp) post state := by
  constructor
  · intro safe
    exact ⟨safe.1, safe.2 () trivial⟩
  · rintro ⟨offered, rest⟩
    exact ⟨offered, fun _ _ => rest⟩

theorem wp_around {enter : Interpreter → Interpreter}
    {leave : Interpreter → Interpreter → Interpreter} {comp : Interp α} :
    wp contract (around enter leave comp) post state ↔
      wp contract comp (fun result after => post result (leave state after))
        (enter state) :=
  Comp.safe_bind

theorem wp_relocate {locate : Option Span → Option Span}
    {comp : Interp α} :
    wp contract (relocate locate comp) post state ↔
      wp contract comp (fun result after =>
        match result with
        | .error (.error error) => post
            (.error (.error { error with span := locate error.span })) after
        | result => post result after) state := by
  refine Iff.trans Comp.safe_bind (iff_of_eq ?_)
  unfold wp
  congr 1
  funext outcome
  obtain ⟨result, after⟩ := outcome
  rcases result with (_ | _ | _) | _ <;> rfl

theorem wp_call {point : Point} {operation : HostCall}
    {post : Result operation.Answer → Interpreter → Prop} :
    wp contract (call point operation) post state ↔
      contract.call (state.runtime.host, operation) ∧
      ∀ reply, contract.reply (state.runtime.host, operation) reply →
        match reply with
        | .ok answer => post (.ok answer) state
        | .error message => post
            (.error (.error (failure point (.host message) state)))
            state := by
  constructor
  · intro safe
    refine ⟨safe.1, fun reply accepted => ?_⟩
    have rest := safe.2 reply accepted
    cases reply <;> exact rest
  · rintro ⟨offered, rest⟩
    refine ⟨offered, fun reply accepted => ?_⟩
    have continues := rest reply accepted
    cases reply <;> exact continues

theorem wp_spawn {jobs : List Worker}
    {post : Result (List WorkerEnd × Option String) → Interpreter → Prop} :
    wp contract (spawn jobs) post state ↔
      (∀ job ∈ jobs, contract.job job) ∧
      ∀ reply, Joined contract.done jobs reply → post (.ok reply) state :=
  Iff.rfl

end NetLang.Interp

namespace NetLang

open Interp

/-- What every computation of the interpreter is to respect: a contract with
its surroundings, a relation between the states before and after it, an
invariant, and a condition on the ways to stop without a value. -/
structure Discipline where
  contract : Contract effects
  rel : Interpreter → Interpreter → Prop
  inv : Interpreter → Prop
  stop : Stop → Prop
  refl : ∀ state, rel state state
  trans : ∀ {first second third}, rel first second → rel second third →
    rel first third

namespace Discipline

variable {α β : Type} {discipline : Discipline}
  {post : α → Interpreter → Prop} {state : Interpreter}

/-- What holds after a computation that started in the given state. -/
structure After (discipline : Discipline) (before : Interpreter)
    (post : α → Interpreter → Prop) (result : Result α)
    (after : Interpreter) : Prop where
  rel : discipline.rel before after
  inv : discipline.inv after
  ok : ∀ value, result = .ok value → post value after
  error : ∀ reason, result = .error reason → discipline.stop reason

/-- A computation respects a discipline from a state, and its value meets the
postcondition. -/
def Runs (discipline : Discipline) (comp : Interp α)
    (post : α → Interpreter → Prop) (state : Interpreter) : Prop :=
  discipline.inv state →
    wp discipline.contract comp (discipline.After state post) state

theorem Runs.mono {weaker : α → Interpreter → Prop} {comp : Interp α}
    (runs : discipline.Runs comp post state)
    (implies : ∀ value after, discipline.rel state after →
      discipline.inv after → post value after → weaker value after) :
    discipline.Runs comp weaker state := by
  intro inv
  refine wp_mono (runs inv) fun result after held => ?_
  exact ⟨held.rel, held.inv, fun value same =>
    implies value after held.rel held.inv (held.ok value same), held.error⟩

theorem runs_pure {value : α} (holds : post value state) :
    discipline.Runs (pure value) post state := by
  intro inv
  refine ⟨discipline.refl state, inv, ?_, ?_⟩
  · rintro _ ⟨⟩
    exact holds
  · rintro _ ⟨⟩

theorem runs_stop {reason : Stop} (stops : discipline.stop reason) :
    discipline.Runs (Interp.stop reason) post state := by
  intro inv
  refine ⟨discipline.refl state, inv, ?_, ?_⟩
  · rintro _ ⟨⟩
  · rintro _ ⟨⟩
    exact stops

theorem runs_fail {point : Point} {kind : ErrorKind}
    (stops : discipline.stop (.error (failure point kind state))) :
    discipline.Runs (fail point kind) post state := by
  intro inv
  refine ⟨discipline.refl state, inv, ?_, ?_⟩
  · rintro _ ⟨⟩
  · rintro _ ⟨⟩
    exact stops

theorem runs_lift {point : Point} {result : Except ErrorKind α}
    (ok : ∀ value, result = .ok value → post value state)
    (error : ∀ kind, result = .error kind →
      discipline.stop (.error (failure point kind state))) :
    discipline.Runs (lift point result) post state := by
  cases result with
  | ok value => exact runs_pure (ok value rfl)
  | error kind => exact runs_fail (error kind rfl)

theorem Runs.bind {comp : Interp α} {f : α → Interp β}
    {after : β → Interpreter → Prop}
    (first : discipline.Runs comp post state)
    (rest : ∀ value next, discipline.rel state next → discipline.inv next →
      post value next → discipline.Runs (f value) after next) :
    discipline.Runs (comp >>= f) after state := by
  intro inv
  rw [wp_bind]
  refine wp_mono (first inv) fun result next held => ?_
  cases result with
  | ok value =>
      refine wp_mono (rest value next held.rel held.inv
        (held.ok value rfl) held.inv) fun result last done => ?_
      exact ⟨discipline.trans held.rel done.rel, done.inv, done.ok,
        done.error⟩
  | error reason =>
      refine ⟨held.rel, held.inv, ?_, ?_⟩
      · rintro _ ⟨⟩
      · rintro _ ⟨⟩
        exact held.error reason rfl

theorem runs_get {after : β → Interpreter → Prop}
    {f : Interpreter → Interp β}
    (rest : discipline.inv state → discipline.Runs (f state) after state) :
    discipline.Runs (get >>= f) after state := by
  intro inv
  rw [wp_bind]
  exact rest inv inv

/-- A change of the state that the discipline allows. -/
theorem runs_attempt {point : Point} {result : Except Fault α}
    (ok : ∀ value, result = .ok value → post value state)
    (error : ∀ kind, result = .error (.kind kind) →
      discipline.stop (.error (failure point kind state)))
    (panics : discipline.stop .panic) :
    discipline.Runs (attempt point result) post state := by
  rcases result with ((kind | _) | value)
  · exact runs_fail (error kind rfl)
  · exact runs_stop panics
  · exact runs_pure (ok value rfl)

theorem runs_ret {value : α} {next : Interpreter}
    {comp : Interp α} (same : comp state = .ret (.ok value, next))
    (rel : discipline.inv state → discipline.rel state next)
    (inv : discipline.inv state → discipline.inv next)
    (holds : discipline.inv state → post value next) :
    discipline.Runs comp post state := by
  intro held
  unfold wp
  rw [same]
  refine ⟨rel held, inv held, ?_, ?_⟩
  · rintro _ ⟨⟩
    exact holds held
  · rintro _ ⟨⟩

/-- A write changes one slot, or it panics. -/
theorem runs_writeSlot {id : Nat} {value : Value}
    {post : Unit → Interpreter → Prop}
    (rel : discipline.inv state → id < state.bindings.length →
      discipline.rel state (written state id value))
    (inv : discipline.inv state → id < state.bindings.length →
      discipline.inv (written state id value))
    (holds : discipline.inv state → id < state.bindings.length →
      post () (written state id value))
    (panics : ¬ id < state.bindings.length → discipline.stop .panic) :
    discipline.Runs (write id value) post state := by
  by_cases inside : id < state.bindings.length
  · exact runs_ret (if_pos inside) (rel · inside) (inv · inside)
      (holds · inside)
  · have stops : discipline.Runs (Interp.stop .panic) post state :=
      runs_stop (panics inside)
    intro held
    have safe := stops held
    simpa [wp, write, inside, Interp.stop] using safe

/-- The state is shown. -/
theorem runs_observe {note : Interpreter → Observation}
    {post : Unit → Interpreter → Prop}
    (shown : discipline.inv state → discipline.contract.note (note state))
    (holds : discipline.inv state → post () state) :
    discipline.Runs (observe note) post state := by
  intro held
  refine ⟨shown held, fun _ _ => ⟨discipline.refl state, held, ?_, ?_⟩⟩
  · rintro _ ⟨⟩
    exact holds held
  · rintro _ ⟨⟩

theorem runs_tick {point : Point} {post : Unit → Interpreter → Prop}
    (rel : discipline.rel state (attempted state))
    (inv : discipline.inv state → discipline.inv (attempted state))
    (holds : post () (attempted state))
    (stops : discipline.stop
      (.error (failure point .stepLimit (attempted state)))) :
    discipline.Runs (tick point) post state := by
  intro held
  rw [wp_tick]
  constructor
  · refine ⟨rel, inv held, ?_, ?_⟩
    · rintro _ ⟨⟩
      exact holds
    · rintro _ ⟨⟩
  · refine ⟨rel, inv held, ?_, ?_⟩
    · rintro _ ⟨⟩
    · rintro _ ⟨⟩
      exact stops

theorem runs_call {point : Point} {operation : HostCall}
    {post : operation.Answer → Interpreter → Prop}
    (offered : discipline.inv state →
      discipline.contract.call (state.runtime.host, operation))
    (holds : ∀ answer, discipline.contract.reply
      (state.runtime.host, operation) (.ok answer) → post answer state)
    (stops : ∀ message, discipline.stop
      (.error (failure point (.host message) state))) :
    discipline.Runs (call point operation) post state := by
  intro held
  rw [wp_call]
  refine ⟨offered held, fun reply accepted => ?_⟩
  cases reply with
  | ok answer =>
      refine ⟨discipline.refl state, held, ?_, ?_⟩
      · rintro _ ⟨⟩
        exact holds answer accepted
      · rintro _ ⟨⟩
  | error message =>
      refine ⟨discipline.refl state, held, ?_, ?_⟩
      · rintro _ ⟨⟩
      · rintro _ ⟨⟩
        exact stops message

theorem runs_reported {comp : Interp α}
    {after : Interpreter → Result α → Interpreter → Observation}
    (runs : discipline.Runs comp post state)
    (note : ∀ result final, discipline.inv state →
      discipline.After state post result final →
      discipline.contract.note (after state result final)) :
    discipline.Runs (reported after comp) post state := by
  intro held
  rw [wp_reported]
  exact wp_mono (runs held) fun result final done =>
    ⟨note result final held done, done⟩

theorem runs_observed {comp : Interp α}
    {before : Interpreter → Observation}
    {after : Interpreter → Result α → Interpreter → Observation}
    (shown : discipline.inv state → discipline.contract.note (before state))
    (runs : discipline.Runs comp post state)
    (note : ∀ result final, discipline.inv state →
      discipline.After state post result final →
      discipline.contract.note (after state result final)) :
    discipline.Runs (observed before after comp) post state := by
  intro held
  rw [wp_observed]
  exact ⟨shown held, runs_reported runs note held⟩

theorem runs_around {comp : Interp α} {enter : Interpreter → Interpreter}
    {leave : Interpreter → Interpreter → Interpreter}
    {inner : α → Interpreter → Prop}
    (entered : discipline.inv state → discipline.inv (enter state))
    (runs : discipline.Runs comp inner (enter state))
    (left : ∀ after, discipline.inv state →
      discipline.rel (enter state) after → discipline.inv after →
      discipline.rel state (leave state after) ∧
        discipline.inv (leave state after))
    (holds : ∀ value after, discipline.rel (enter state) after →
      inner value after → post value (leave state after)) :
    discipline.Runs (around enter leave comp) post state := by
  intro held
  rw [wp_around]
  refine wp_mono (runs (entered held)) fun result after done => ?_
  obtain ⟨rel, inv⟩ := left after held done.rel done.inv
  exact ⟨rel, inv, fun value same =>
    holds value after done.rel (done.ok value same), done.error⟩

theorem runs_relocate {comp : Interp α}
    {locate : Option Span → Option Span}
    (runs : discipline.Runs comp post state)
    (stops : ∀ error, discipline.stop (.error error) →
      discipline.stop (.error { error with span := locate error.span })) :
    discipline.Runs (relocate locate comp) post state := by
  intro held
  rw [wp_relocate]
  refine wp_mono (runs held) fun result after done => ?_
  split
  · next error =>
      refine ⟨done.rel, done.inv, ?_, ?_⟩
      · rintro _ ⟨⟩
      · rintro _ ⟨⟩
        exact stops error (done.error _ rfl)
  · exact done

theorem runs_nested {comp : Interp α} {point : Point}
    (stops : discipline.stop
      (.error (failure point .expressionDepth state)))
    (runs : discipline.Runs (around
        (fun state => { state with
          expressionDepth := state.expressionDepth + 1 })
        (fun _ after => { after with
          expressionDepth := after.expressionDepth - 1 }) comp)
      post state) :
    discipline.Runs (nested point comp) post state := by
  by_cases deep : state.limits.expressionDepth ≤ state.expressionDepth
  · intro held
    have failed : wp discipline.contract (fail point .expressionDepth)
        (discipline.After state post) state := runs_fail stops held
    simpa [wp, nested, deep] using failed
  · intro held
    have inner := runs held
    simpa [wp, nested, deep] using inner

end Discipline

end NetLang
