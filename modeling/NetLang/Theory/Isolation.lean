import NetLang.Theory.Frame

/-!
# Isolation

Every computation of the interpreter has the frame of `Frame`, and a worker
keeps the bindings and the functions of its snapshot, in every state that can
be observed.  Only assignment guards against writing to a captured binding;
every other write goes to a binding that was allocated after the boundary.
-/

namespace NetLang

open Interp Discipline

/-- Only a `let` statement changes the environment of its list. -/
def KeepsEnvironment (node : Stmt) (env : Environment)
    (result : Result (Flow × Environment)) : Prop :=
  (∀ name annotated value, node ≠ .let name annotated value) →
    ∀ outcome, result = .ok outcome → outcome.2 = env

/-- The frame of an observed computation. -/
def Observation.Framed : Observation → Prop
  | .evaluating _ _ _ state | .executing _ _ _ state
  | .storing _ _ _ _ state | .entering _ _ state => Isolated state
  | .evaluated _ _ _ before _ after => Isolated before ∧ Frame before after
  | .executed _ node env before result after =>
      Isolated before ∧ Frame before after ∧ KeepsEnvironment node env result
  | .returned _ before _ after => Isolated before ∧ Frame before after
  | .assigned _ _ _ _ _ before _ after =>
      Isolated before ∧ Frame before after
  | .joined _ before _ after => Isolated before ∧ OnlyEffects before after

/-- Nothing is assumed of the host.  Only an interpreter that is not a worker
starts threads. -/
def isolation (threads : Prop) : Contract effects where
  call := fun _ => True
  reply := fun _ _ => True
  job := fun _ => threads
  done := fun _ _ => True
  note := Observation.Framed

structure Ready (threads : Prop) (state : Interpreter) : Prop where
  isolated : Isolated state
  inside : state.capturedBindings ≤ state.bindings.length
  threads : state.inParallelWorker = false → threads

theorem Ready.frame {threads : Prop} {before after : Interpreter}
    (ready : Ready threads before) (frame : Frame before after) :
    Ready threads after :=
  ⟨frame.isolated ready.isolated,
    (frame.capturedBindings ▸ ready.inside).trans frame.bindings.length_le,
    fun outside => ready.threads (frame.inParallelWorker ▸ outside)⟩

def framing (threads : Prop) : Discipline where
  contract := isolation threads
  rel := Frame
  inv := Ready threads
  stop := fun _ => True
  refl := .refl
  trans := .trans

/-- The discipline of what a parallel statement does besides its workers. -/
def calm (threads : Prop) : Discipline where
  contract := isolation threads
  rel := OnlyEffects
  inv := Ready threads
  stop := fun _ => True
  refl := .refl
  trans := .trans

variable {α β : Type} {threads : Prop}

/-- A computation has the frame from every state. -/
def Frames (threads : Prop) (comp : Interp α) : Prop :=
  ∀ state, (framing threads).Runs comp (fun _ _ => True) state

/-- A computation changes nothing but the host, from every state. -/
def Calm (threads : Prop) (comp : Interp α) : Prop :=
  ∀ state, (calm threads).Runs comp (fun _ _ => True) state

theorem Calm.frames {comp : Interp α} (quiet : Calm threads comp) :
    Frames threads comp := by
  intro state ready
  refine wp_mono (quiet state ready) fun result after held => ?_
  exact ⟨held.rel.frame, held.inv, held.ok, held.error⟩

section Rules

theorem Frames.pure (value : α) : Frames threads (pure value) :=
  fun _ => runs_pure trivial

theorem Frames.stop (reason : Stop) :
    Frames threads (Interp.stop reason : Interp α) :=
  fun _ => runs_stop trivial

theorem Frames.fail (point : Point) (kind : ErrorKind) :
    Frames threads (Interp.fail point kind : Interp α) :=
  fun _ => runs_fail trivial

theorem Frames.lift (point : Point) (result : Except ErrorKind α) :
    Frames threads (Interp.lift point result) :=
  fun _ => runs_lift (fun _ _ => trivial) fun _ _ => trivial

theorem Frames.attempt (point : Point) (result : Except Fault α) :
    Frames threads (Interp.attempt point result) :=
  fun _ => runs_attempt (fun _ _ => trivial) (fun _ _ => trivial) trivial

theorem Frames.observe {note : Interpreter → Observation}
    (shown : ∀ state, Isolated state → (note state).Framed) :
    Frames threads (Interp.observe note) :=
  fun state => runs_observe (fun ready => shown state ready.isolated)
    fun _ => trivial

theorem Frames.bind {comp : Interp α} {f : α → Interp β}
    (first : Frames threads comp) (rest : ∀ value, Frames threads (f value)) :
    Frames threads (comp >>= f) :=
  fun state => (first state).bind fun value next _ _ _ => rest value next

theorem Frames.get {f : Interpreter → Interp β}
    (rest : ∀ state, Frames threads (f state)) :
    Frames threads (Interp.get >>= f) :=
  fun state => runs_get fun _ => rest state state

theorem Frames.ite {condition : Prop} [Decidable condition]
    {first second : Interp α} (yes : Frames threads first)
    (no : Frames threads second) :
    Frames threads (if condition then first else second) := by
  split
  · exact yes
  · exact no

theorem Frames.relocate {locate : Option Span → Option Span}
    {comp : Interp α} (frames : Frames threads comp) :
    Frames threads (Interp.relocate locate comp) :=
  fun state => runs_relocate (frames state) fun _ _ => trivial

/-- A part of the state that is put back is not changed. -/
theorem Frames.around {comp : Interp α}
    {enter : Interpreter → Interpreter}
    {leave : Interpreter → Interpreter → Interpreter}
    (entered : ∀ state, Ready threads state → Ready threads (enter state))
    (frames : Frames threads comp)
    (left : ∀ state after, Frame (enter state) after →
      Frame state (leave state after)) :
    Frames threads (Interp.around enter leave comp) := by
  intro state
  refine runs_around (entered state) (frames (enter state)) ?_
    fun _ _ _ _ => trivial
  intro after ready frame _
  exact ⟨left state after frame, ready.frame (left state after frame)⟩

theorem runs_withSpan {span : Option Span} {comp : Interp α}
    {state : Interpreter}
    (runs : (framing threads).Runs comp (fun _ _ => True)
      { state with currentSpan := span.or state.currentSpan }) :
    (framing threads).Runs (Interp.withSpan span comp) (fun _ _ => True)
      state := by
  refine runs_around
    (fun ready => ⟨ready.isolated, ready.inside, ready.threads⟩) runs ?_
    fun _ _ _ _ => trivial
  intro after ready frame _
  have whole : Frame state { after with currentSpan := state.currentSpan } :=
    { frame with currentSpan := rfl }
  exact ⟨whole, ready.frame whole⟩

theorem Frames.withSpan {span : Option Span} {comp : Interp α}
    (frames : Frames threads comp) :
    Frames threads (Interp.withSpan span comp) :=
  fun _ => runs_withSpan (frames _)

theorem Frames.nested {point : Point} {comp : Interp α}
    (frames : Frames threads comp) :
    Frames threads (Interp.nested point comp) := by
  intro state
  refine runs_nested trivial (Frames.around ?_ frames ?_ state)
  · exact fun state ready => ⟨ready.isolated, ready.inside, ready.threads⟩
  · intro state after frame
    refine { frame with expressionDepth := ?_ }
    have deeper := frame.expressionDepth
    simp only at deeper
    simp [deeper]

theorem Frames.framed {name : String} {returnType : Option ResolvedType}
    {comp : Interp α} (frames : Frames threads comp) :
    Frames threads (Interp.framed name returnType comp) := by
  refine Frames.around ?_ frames ?_
  · exact fun state ready => ⟨ready.isolated, ready.inside, ready.threads⟩
  · intro state after frame
    refine { frame with
      returnType := rfl, expressionDepth := rfl, callStack := ?_ }
    have longer := frame.callStack
    simp only at longer
    simp [longer]

theorem Frames.observed {comp : Interp α}
    {before : Interpreter → Observation}
    {after : Interpreter → Result α → Interpreter → Observation}
    (frames : Frames threads comp)
    (shown : ∀ state, Isolated state → (before state).Framed)
    (note : ∀ state result final, Isolated state → Frame state final →
      (after state result final).Framed) :
    Frames threads (Interp.observed before after comp) :=
  fun state => runs_observed (fun ready => shown state ready.isolated)
    (frames state)
    fun result final ready held =>
      note state result final ready.isolated held.rel

theorem Frames.reported {comp : Interp α}
    {after : Interpreter → Result α → Interpreter → Observation}
    (frames : Frames threads comp)
    (note : ∀ state result final, Isolated state → Frame state final →
      (after state result final).Framed) :
    Frames threads (Interp.reported after comp) :=
  fun state => runs_reported (frames state)
    fun result final ready held =>
      note state result final ready.isolated held.rel

end Rules

section Effects

theorem Calm.bind {comp : Interp α} {f : α → Interp β}
    (first : Calm threads comp) (rest : ∀ value, Calm threads (f value)) :
    Calm threads (comp >>= f) :=
  fun state => (first state).bind fun value next _ _ _ => rest value next

theorem Calm.pure (value : α) : Calm threads (pure value) :=
  fun _ => runs_pure trivial

theorem Calm.stop (reason : Stop) :
    Calm threads (Interp.stop reason : Interp α) :=
  fun _ => runs_stop trivial

/-- A change of the host or of the count of steps. -/
theorem Calm.ret {comp : Interp α} (value : Interpreter → α)
    (change : Interpreter → Interpreter)
    (same : ∀ state, comp state = .ret (.ok (value state), change state))
    (only : ∀ state, OnlyEffects state (change state)) :
    Calm threads comp :=
  fun state => runs_ret (same state) (fun _ => only state)
    (fun ready => ready.frame (only state).frame) fun _ => trivial

theorem Calm.tick (point : Point) : Calm threads (Interp.tick point) := by
  intro state
  have only : OnlyEffects state (attempted state) := ⟨rfl, rfl, rfl⟩
  exact runs_tick only (fun ready => ready.frame only.frame) trivial trivial

theorem Calm.call (point : Point) (operation : HostCall) :
    Calm threads (Interp.call point operation) :=
  fun _ => runs_call (fun _ => trivial) (fun _ _ => trivial)
    fun _ => trivial

theorem Calm.fork (point : Point) : Calm threads (Interp.fork point) :=
  (Calm.call point .fork).bind fun _ =>
    Calm.ret _ _ (fun _ => rfl) fun _ => ⟨rfl, rfl, rfl⟩

theorem Calm.print (point : Point) (text : String) :
    Calm threads (Interp.print point text) := by
  intro state
  cases buffered : state.runtime.buffer with
  | none =>
      have direct : Calm threads (Interp.call point (.print text)) :=
        .call point (.print text)
      intro ready
      have safe := direct state ready
      simpa [wp, Interp.print, buffered] using safe
  | some buffer =>
      cases pushed : buffer.push text with
      | none =>
          have failed : (calm threads).Runs (Interp.fail point .outputLimit)
              (fun (_ : Unit) _ => True) state := runs_fail trivial
          intro ready
          have safe := failed ready
          simpa [wp, Interp.print, buffered, pushed] using safe
      | some after =>
          have only : OnlyEffects state { state with
              runtime := { state.runtime with buffer := some after } } :=
            ⟨rfl, rfl, by simp [buffered]⟩
          have prints : Interp.print point text state =
              .ret (.ok (), { state with
                runtime := { state.runtime with buffer := some after } }) := by
            simp [Interp.print, buffered, pushed]
          exact runs_ret prints (fun _ => only)
            (fun ready => ready.frame only.frame) fun _ => trivial

theorem Frames.tick (point : Point) : Frames threads (Interp.tick point) :=
  (Calm.tick point).frames

theorem Frames.call (point : Point) (operation : HostCall) :
    Frames threads (Interp.call point operation) :=
  (Calm.call point operation).frames

end Effects

end NetLang
