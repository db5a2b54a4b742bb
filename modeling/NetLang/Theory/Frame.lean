import NetLang.Theory.Triples

/-!
# What a computation of the interpreter leaves alone

Arenas only grow: a binding keeps its annotation and its mutability, a
binding that was captured by a worker keeps its value as well, and so does an
immutable one that has a value.  The context of an interpreter is the same
before and after every computation.
-/

namespace NetLang

open Interp

/-- What may become of a binding; captured bindings do not change at all. -/
structure Binding.Kept (captured : Bool) (before after : Binding) : Prop where
  annotated : after.annotated = before.annotated
  mutable : after.mutable = before.mutable
  captured : captured = true → after = before
  immutable : before.mutable = false → before.value.isSome →
    after.value = before.value
  value : before.value.isSome → after.value.isSome

theorem Binding.Kept.refl (captured : Bool) (binding : Binding) :
    binding.Kept captured binding :=
  ⟨rfl, rfl, fun _ => rfl, fun _ _ => rfl, id⟩

theorem Binding.Kept.trans {captured : Bool} {first second third : Binding}
    (before : first.Kept captured second)
    (after : second.Kept captured third) : first.Kept captured third := by
  refine ⟨after.annotated.trans before.annotated,
    after.mutable.trans before.mutable, ?_, ?_,
    fun known => after.value (before.value known)⟩
  · intro inside
    rw [after.captured inside, before.captured inside]
  · intro immutable known
    rw [after.immutable (before.mutable.trans immutable)
      (before.value known), before.immutable immutable known]

/-- The bindings of one arena, after a computation. -/
def BindingsKept (captured : Nat) (before after : List Binding) : Prop :=
  ∀ (id : Nat) (binding : Binding), before[id]? = some binding →
    ∃ kept, after[id]? = some kept ∧
      binding.Kept (decide (id < captured)) kept

theorem BindingsKept.refl (captured : Nat) (bindings : List Binding) :
    BindingsKept captured bindings bindings :=
  fun _ binding found => ⟨binding, found, .refl _ binding⟩

theorem BindingsKept.trans {captured : Nat}
    {first second third : List Binding}
    (before : BindingsKept captured first second)
    (after : BindingsKept captured second third) :
    BindingsKept captured first third := by
  intro id binding found
  obtain ⟨middle, atMiddle, kept⟩ := before id binding found
  obtain ⟨last, atLast, keptAgain⟩ := after id middle atMiddle
  exact ⟨last, atLast, kept.trans keptAgain⟩

theorem BindingsKept.length_le {captured : Nat}
    {before after : List Binding}
    (kept : BindingsKept captured before after) :
    before.length ≤ after.length := by
  by_contra shorter
  have inside : after.length < before.length := by omega
  obtain ⟨_, found, _⟩ := kept after.length _
    (List.getElem?_eq_getElem inside)
  simp at found

theorem BindingsKept.append (captured : Nat) (bindings extra : List Binding) :
    BindingsKept captured bindings (bindings ++ extra) := by
  intro id binding found
  have inside := (List.getElem?_eq_some_iff.mp found).1
  exact ⟨binding, by rw [List.getElem?_append_left inside, found],
    .refl _ binding⟩

/-- Giving a value to a mutable or an uninitialized binding that was not
captured. -/
theorem BindingsKept.modify {captured id : Nat} {bindings : List Binding}
    {value : Value} (own : captured ≤ id)
    (writable : ∀ binding, bindings[id]? = some binding →
      binding.mutable = false → binding.value = none) :
    BindingsKept captured bindings (bindings.modify id fun binding =>
      { binding with value := some value }) := by
  intro other binding found
  by_cases same : id = other
  · subst same
    refine ⟨{ binding with value := some value }, by simp [found], rfl, rfl,
      ?_, ?_, fun _ => rfl⟩
    · intro inside
      simp only [decide_eq_true_eq] at inside
      omega
    · intro immutable known
      rw [writable binding found immutable] at known
      cases known
  · exact ⟨binding, by simp [found, same], .refl _ binding⟩

/-- The effect of any computation of an interpreter on its own state. -/
structure Frame (before after : Interpreter) : Prop where
  types : after.types = before.types
  returnType : after.returnType = before.returnType
  currentSpan : after.currentSpan = before.currentSpan
  limits : after.limits = before.limits
  expressionDepth : after.expressionDepth = before.expressionDepth
  callStack : after.callStack = before.callStack
  capturedBindings : after.capturedBindings = before.capturedBindings
  inParallelWorker : after.inParallelWorker = before.inParallelWorker
  workers : after.workers = before.workers
  snapshot : after.snapshot = before.snapshot
  host : after.runtime.host = before.runtime.host
  buffer : after.runtime.buffer.isSome = before.runtime.buffer.isSome
  bindings : BindingsKept before.capturedBindings before.bindings
    after.bindings
  functions : before.functions <+: after.functions

theorem Frame.refl (state : Interpreter) : Frame state state :=
  ⟨rfl, rfl, rfl, rfl, rfl, rfl, rfl, rfl, rfl, rfl, rfl, rfl, .refl _ _,
    List.prefix_rfl⟩

theorem Frame.trans {first second third : Interpreter}
    (before : Frame first second) (after : Frame second third) :
    Frame first third where
  types := after.types.trans before.types
  returnType := after.returnType.trans before.returnType
  currentSpan := after.currentSpan.trans before.currentSpan
  limits := after.limits.trans before.limits
  expressionDepth := after.expressionDepth.trans before.expressionDepth
  callStack := after.callStack.trans before.callStack
  capturedBindings := after.capturedBindings.trans before.capturedBindings
  inParallelWorker := after.inParallelWorker.trans before.inParallelWorker
  workers := after.workers.trans before.workers
  snapshot := after.snapshot.trans before.snapshot
  host := after.host.trans before.host
  buffer := after.buffer.trans before.buffer
  bindings := before.bindings.trans (before.capturedBindings ▸ after.bindings)
  functions := before.functions.trans after.functions

/-- Only the host and the count of steps have changed. -/
structure OnlyEffects (before after : Interpreter) : Prop where
  same : after = { before with
    runtime := after.runtime
    attempts := after.attempts }
  host : after.runtime.host = before.runtime.host
  buffer : after.runtime.buffer.isSome = before.runtime.buffer.isSome

theorem OnlyEffects.refl (state : Interpreter) : OnlyEffects state state :=
  ⟨rfl, rfl, rfl⟩

theorem OnlyEffects.trans {first second third : Interpreter}
    (before : OnlyEffects first second) (after : OnlyEffects second third) :
    OnlyEffects first third := by
  refine ⟨?_, after.host.trans before.host, after.buffer.trans before.buffer⟩
  rw [after.same, before.same]

theorem OnlyEffects.frame {before after : Interpreter}
    (only : OnlyEffects before after) : Frame before after := by
  obtain ⟨same, host, buffer⟩ := only
  have bindings : after.bindings = before.bindings := by rw [same]
  have functions : after.functions = before.functions := by rw [same]
  constructor
  case host => exact host
  case buffer => exact buffer
  case bindings => exact bindings ▸ .refl _ _
  case functions => exact functions ▸ List.prefix_rfl
  all_goals rw [same]

/-- A worker still has the bindings and the functions of its snapshot. -/
def Isolated (state : Interpreter) : Prop :=
  ∀ snapshot, state.snapshot = some snapshot →
    state.capturedBindings = snapshot.bindings.length ∧
      state.bindings.take state.capturedBindings = snapshot.bindings ∧
      snapshot.functions <+: state.functions

theorem BindingsKept.take_eq {captured : Nat} {before after : List Binding}
    (kept : BindingsKept captured before after)
    (inside : captured ≤ before.length) :
    after.take captured = before.take captured := by
  have longer := kept.length_le
  apply List.ext_getElem
  · simp only [List.length_take]
    omega
  · intro id first second
    simp only [List.length_take] at first second
    have bound : id < before.length := by omega
    obtain ⟨same, found, binding⟩ :=
      kept id before[id] (List.getElem?_eq_getElem bound)
    have equal := binding.captured (by simp; omega)
    rw [List.getElem_take, List.getElem_take]
    rw [equal] at found
    exact (List.getElem?_eq_some_iff.mp found).2

theorem Frame.isolated {before after : Interpreter}
    (frame : Frame before after) (isolated : Isolated before) :
    Isolated after := by
  intro snapshot known
  obtain ⟨length, bindings, functions⟩ :=
    isolated snapshot (frame.snapshot ▸ known)
  have inside : before.capturedBindings ≤ before.bindings.length := by
    have shown := congrArg List.length bindings
    simp only [List.length_take] at shown
    omega
  refine ⟨frame.capturedBindings.trans length, ?_,
    functions.trans frame.functions⟩
  rw [frame.capturedBindings, frame.bindings.take_eq inside, bindings]

theorem Worker.start_isolated (worker : Worker) : Isolated worker.start := by
  intro snapshot known
  cases known
  exact ⟨rfl, List.take_length, List.prefix_rfl⟩

end NetLang
