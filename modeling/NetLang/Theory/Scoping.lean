import NetLang.Theory.Scopes
import NetLang.Theory.Triples

/-!
# Scoped computations

What every computation of the interpreter is to respect, given the last
analyzer of a walk over the program: whatever is executed was visited where
the scopes match the environment, and errors about names, calls and function
bindings are explained by the analysis.
-/

namespace NetLang

open Interp Discipline

variable {α β : Type}

/-- An error about a name or a function is explained by a report, by a call
whose callee is not known to be a function, or by an assignment to a path
whose root is immutable. -/
def Analyzer.Explains (final : Analyzer) (point : Point) : ErrorKind → Prop
  | .undefinedName _ => final.Reports .undefinedName
  | .functionAssignment => final.Reports .immutableAssignment ∨
      ∃ static target value name,
        final.Visited static point (.expression (.assignment target value)) ∧
        target.unspanned.identifier? = none ∧
        Analyzer.rootOf target = .identifier name ∧
        Analyzer.isImmutable static name = true
  | .argumentCount _ _ _ => final.Reports .argumentCount ∨ point = [] ∨
      ∃ static callee arguments,
        final.Visited static point (.expression (.call callee arguments)) ∧
        Analyzer.calleeArity static callee.unspanned = none
  | .iteration _ kind => final.Explains point kind
  | _ => True

/-- A result whose error is explained. -/
def Analyzer.Settles (final : Analyzer) (result : Result α) : Prop :=
  ∀ error, result = .error (.error error) →
    final.Explains error.origin error.kind

/-- A node was visited where the scopes match the environment. -/
def Analyzer.Knows (final : Analyzer) (point : Point) (node : Node)
    (env : Environment) (state : Interpreter) : Prop :=
  ∃ static, final.Visited static point node ∧ Agrees static env state

/-- What holds of everything that is executed. -/
def Observation.Scoped (final : Analyzer) : Observation → Prop
  | .evaluating point node env state =>
      final.Knows point (.expression node) env state
  | .executing point node env state =>
      final.Knows point (.statement node) env state
  | .evaluated _ _ _ _ result _ => final.Settles result
  | .executed _ _ _ _ result _ => final.Settles result
  | .returned _ _ result _ => final.Settles result
  | .assigned _ _ _ _ _ _ result _ => final.Settles result
  | .joined _ _ result _ => final.Settles result
  | .storing _ _ _ _ _ | .entering _ _ _ => True

/-- A function captured an environment of the scopes in which its body was
analyzed. -/
def Function.Scoped (final : Analyzer) (state : Interpreter)
    (function : Function) : Prop :=
  ∃ static returnAnnotated, Agrees static function.closure state ∧
    final.Covers static (Analyzer.functionAnalysis function.point
      function.parameters returnAnnotated function.body)

def Analyzer.Fits (final : Analyzer) (state : Interpreter) : Prop :=
  ∀ function ∈ state.functions, function.Scoped final state

/-- A worker starts in the scopes in which its body was analyzed. -/
structure Worker.Scoped (final : Analyzer) (worker : Worker) : Prop where
  fits : final.Fits worker.start
  body : ∃ static, Agrees static ([] :: worker.snapshot.env) worker.start ∧
    final.Covers static (Analyzer.iterationAnalysis worker.point
      worker.variableName worker.body)

def WorkerEnd.Scoped (final : Analyzer) : WorkerEnd → Prop
  | .finished outcome => ∀ error, outcome.result = .error error →
      final.Explains error.origin error.kind
  | _ => True

def scopedContract (final : Analyzer) : Contract effects where
  call := fun _ => True
  reply := fun _ _ => True
  job := Worker.Scoped final
  done := fun _ done => done.Scoped final
  note := Observation.Scoped final

def scoping (final : Analyzer) : Discipline where
  contract := scopedContract final
  rel := ArenasKept
  inv := final.Fits
  stop := fun reason => ∀ error, reason = .error error →
    final.Explains error.origin error.kind
  refl := .refl
  trans := .trans

/-- The discipline of computations that execute nothing of the program and
leave the arenas as they are. -/
def plainly (final : Analyzer) : Discipline where
  contract := scopedContract final
  rel := SameArenas
  inv := fun _ => True
  stop := fun reason => ∀ error, reason = .error error → error.kind.Plain
  refl := .refl
  trans := .trans

/-- A computation that executes nothing of the program. -/
def Leaf (final : Analyzer) (comp : Interp α) : Prop :=
  ∀ state, (plainly final).Runs comp (fun _ _ => True) state

variable {final : Analyzer} {state : Interpreter}
  {post : α → Interpreter → Prop}

theorem ErrorKind.Plain.explained {kind : ErrorKind} (plain : kind.Plain)
    (point : Point) : final.Explains point kind := by
  cases kind with
  | undefinedName name => cases plain
  | argumentCount name expected actual => cases plain
  | functionAssignment => cases plain
  | iteration index kind => cases plain
  | _ => trivial

theorem Function.Scoped.keep {function : Function} {before after : Interpreter}
    (known : function.Scoped final before) (kept : ArenasKept before after) :
    function.Scoped final after := by
  obtain ⟨static, returnAnnotated, fits, covers⟩ := known
  exact ⟨static, returnAnnotated, fits.keep kept, covers⟩

/-- No function was added. -/
theorem Analyzer.Fits.keep {before after : Interpreter}
    (fits : final.Fits before) (kept : ArenasKept before after)
    (same : after.functions = before.functions) : final.Fits after := by
  intro function member
  rw [same] at member
  exact (fits function member).keep kept

theorem Analyzer.Fits.same {before after : Interpreter}
    (fits : final.Fits before) (same : SameArenas before after) :
    final.Fits after :=
  fits.keep same.kept same.functions

theorem Analyzer.Settles.stops {result : Result α} {reason : Stop}
    (settles : final.Settles result) (failed : result = .error reason) :
    (scoping final).stop reason := by
  intro error same
  subst same
  exact settles error failed

theorem settles_after {before after : Interpreter} {result : Result α}
    (held : (scoping final).After before post result after) :
    final.Settles result :=
  fun _ failed => held.error _ failed _ rfl

section Leaves

theorem Leaf.runs {comp : Interp α} (leaf : Leaf final comp) :
    (scoping final).Runs comp (fun _ after => SameArenas state after)
      state := by
  intro fits
  refine wp_mono (leaf state trivial) fun result after held => ?_
  refine ⟨held.rel.kept, fits.same held.rel, fun _ _ => held.rel, ?_⟩
  intro reason failed error same
  exact (held.error reason failed error same).explained _

theorem Leaf.pure (value : α) : Leaf final (pure value) :=
  fun _ => runs_pure trivial

theorem Leaf.panic : Leaf final (Interp.stop .panic : Interp α) :=
  fun _ => runs_stop fun _ => nofun

theorem Leaf.fail {point : Point} {kind : ErrorKind} (plain : kind.Plain) :
    Leaf final (fail point kind : Interp α) := by
  refine fun _ => runs_fail ?_
  rintro _ ⟨⟩
  exact plain

theorem Leaf.lift {point : Point} {result : Except ErrorKind α}
    (plain : Plainly result) : Leaf final (lift point result) := by
  refine fun _ => runs_lift (fun _ _ => trivial) fun kind failed => ?_
  rintro _ ⟨⟩
  exact plain kind failed

theorem Leaf.attempt {point : Point} {result : Except Fault α}
    (plain : FailsPlainly result) :
    Leaf final (Interp.attempt point result) := by
  refine fun _ => runs_attempt (fun _ _ => trivial) (fun kind failed => ?_)
    fun _ => nofun
  rintro _ ⟨⟩
  exact plain kind failed

theorem Leaf.bind {comp : Interp α} {f : α → Interp β}
    (first : Leaf final comp) (rest : ∀ value, Leaf final (f value)) :
    Leaf final (comp >>= f) :=
  fun state => (first state).bind fun value next _ _ _ => rest value next

theorem Leaf.ite {condition : Prop} [Decidable condition]
    {first second : Interp α} (yes : condition → Leaf final first)
    (no : ¬ condition → Leaf final second) :
    Leaf final (if condition then first else second) := by
  split
  · next holds => exact yes holds
  · next fails => exact no fails

theorem Leaf.relocate {locate : Option Span → Option Span}
    {comp : Interp α} (leaf : Leaf final comp) :
    Leaf final (relocate locate comp) := by
  refine fun state => runs_relocate (leaf state) fun error plain => ?_
  rintro _ ⟨⟩
  exact plain error rfl

/-- A change that is not one of the arenas. -/
theorem Leaf.ret {comp : Interp α} (value : Interpreter → α)
    (change : Interpreter → Interpreter)
    (same : ∀ state, comp state = .ret (.ok (value state), change state))
    (arenas : ∀ state, SameArenas state (change state)) :
    Leaf final comp :=
  fun state => runs_ret (same state) (fun _ => arenas state) id
    fun _ => trivial

theorem Leaf.tick (point : Point) : Leaf final (tick point) := by
  refine fun _ => runs_tick ⟨rfl, rfl, rfl⟩ id trivial ?_
  rintro _ ⟨⟩
  trivial

theorem Leaf.call (point : Point) (operation : HostCall) :
    Leaf final (call point operation) := by
  refine fun _ => runs_call (fun _ => trivial) (fun _ _ => trivial)
    fun message => ?_
  rintro _ ⟨⟩
  trivial

theorem Leaf.fork (point : Point) : Leaf final (fork point) :=
  (Leaf.call point .fork).bind fun _ =>
    .ret _ _ (fun _ => rfl) fun _ => ⟨rfl, rfl, rfl⟩

theorem Leaf.types : Leaf final types :=
  .ret _ _ (fun _ => rfl) fun _ => .refl _

theorem Leaf.location : Leaf final location :=
  .ret _ _ (fun _ => rfl) fun _ => .refl _

theorem Leaf.binding (id : Nat) : Leaf final (binding id) := by
  intro state
  cases found : state.bindings[id]? with
  | none =>
      have panics : (plainly final).Runs (Interp.stop .panic : Interp Binding)
          (fun _ _ => True) state := Leaf.panic state
      intro held
      have safe := panics held
      simpa [wp, Interp.binding, found, Interp.stop] using safe
  | some binding =>
      have reads : Interp.binding id state = .ret (.ok binding, state) := by
        simp [Interp.binding, found]
      exact runs_ret reads (fun _ => .refl state) (fun held => held)
        fun _ => trivial

theorem Leaf.read (point : Point) (id : Nat) : Leaf final (read point id) := by
  refine (Leaf.binding id).bind fun binding => ?_
  cases binding.value with
  | some value => exact .pure value
  | none => exact .fail trivial

theorem Leaf.check (point : Point) (expected : Option ResolvedType)
    (value : Value) : Leaf final (check point expected value) :=
  fun state =>
    have checked : Leaf final
        (Interp.attempt point (state.types.checkValueType expected value)) :=
      .attempt (checkValueType_plain state.types expected value)
    checked state

theorem Leaf.checkBinding (point : Point) (id : Nat) (value : Value) :
    Leaf final (checkBinding point id value) :=
  (Leaf.binding id).bind fun _ => .check _ _ _

theorem Leaf.checkReturn (point : Point) (value : Value) :
    Leaf final (checkReturn point value) :=
  fun state => Leaf.check point state.returnType value state

theorem Leaf.annotationType (annotated : Option TypeAnnotation) :
    Leaf final (annotationType annotated) :=
  .ret _ _ (fun _ => rfl) fun _ => .refl _

theorem Leaf.print (point : Point) (text : String) :
    Leaf final (print point text) := by
  intro state
  cases buffered : state.runtime.buffer with
  | none =>
      have direct : Leaf final (Interp.call point (.print text)) :=
        .call point (.print text)
      intro held
      have safe := direct state held
      simpa [wp, Interp.print, buffered] using safe
  | some buffer =>
      cases pushed : buffer.push text with
      | none =>
          have failed : Leaf final
              (Interp.fail point .outputLimit : Interp Unit) := .fail trivial
          intro held
          have safe := failed state held
          simpa [wp, Interp.print, buffered, pushed] using safe
      | some after =>
          have prints : Interp.print point text state =
              .ret (.ok (), { state with
                runtime := { state.runtime with buffer := some after } }) := by
            simp [Interp.print, buffered, pushed]
          exact runs_ret prints (fun _ => ⟨rfl, rfl, rfl⟩) id
            fun _ => trivial

end Leaves

section Rules

theorem scoped_panic :
    (scoping final).Runs (Interp.stop .panic) post state :=
  runs_stop fun _ => nofun

theorem scoped_fail {point : Point} {kind : ErrorKind}
    (explained : final.Explains point kind) :
    (scoping final).Runs (fail point kind) post state := by
  refine runs_fail ?_
  rintro _ ⟨⟩
  exact explained

/-- A leaf, and what may be done in the same arenas after it. -/
theorem Leaf.andThen {comp : Interp α} {f : α → Interp β}
    {after : β → Interpreter → Prop} (leaf : Leaf final comp)
    (rest : ∀ value next, SameArenas state next →
      (scoping final).Runs (f value) after next) :
    (scoping final).Runs (comp >>= f) after state :=
  leaf.runs.bind fun value next _ _ same => rest value next same

/-- A part of the state besides the arenas is put back. -/
theorem scoped_around {comp : Interp α} {enter : Interpreter → Interpreter}
    {leave : Interpreter → Interpreter → Interpreter}
    {inner : α → Interpreter → Prop}
    (entered : SameArenas state (enter state))
    (left : ∀ after, SameArenas after (leave state after))
    (runs : (scoping final).Runs comp inner (enter state))
    (holds : ∀ value after, inner value after →
      post value (leave state after)) :
    (scoping final).Runs (around enter leave comp) post state := by
  refine runs_around (fun fits => fits.same entered) runs ?_
    fun value after _ => holds value after
  intro after _ kept fits
  exact ⟨(entered.kept.trans kept).trans (left after).kept,
    fits.same (left after)⟩

theorem scoped_withSpan {span : Option Span} {comp : Interp α}
    (runs : (scoping final).Runs comp post
      { state with currentSpan := span.or state.currentSpan })
    (holds : ∀ value after, post value after →
      post value { after with currentSpan := state.currentSpan }) :
    (scoping final).Runs (withSpan span comp) post state :=
  scoped_around ⟨rfl, rfl, rfl⟩ (fun _ => ⟨rfl, rfl, rfl⟩) runs holds

theorem scoped_nested {comp : Interp α} {point : Point}
    (runs : (scoping final).Runs comp post { state with
      expressionDepth := state.expressionDepth + 1 })
    (holds : ∀ value after, post value after →
      post value { after with
        expressionDepth := after.expressionDepth - 1 }) :
    (scoping final).Runs (nested point comp) post state := by
  refine runs_nested ?_
    (scoped_around ⟨rfl, rfl, rfl⟩ (fun _ => ⟨rfl, rfl, rfl⟩) runs holds)
  rintro _ ⟨⟩
  trivial

theorem scoped_ite {condition : Prop} [Decidable condition]
    {first second : Interp α}
    (yes : condition → (scoping final).Runs first post state)
    (no : ¬ condition → (scoping final).Runs second post state) :
    (scoping final).Runs (if condition then first else second) post
      state := by
  split
  · next holds => exact yes holds
  · next fails => exact no fails

theorem scoped_allocate {binding : Binding}
    {post : Nat → Interpreter → Prop}
    (holds : post state.bindings.length
      { state with bindings := state.bindings ++ [binding] }) :
    (scoping final).Runs (allocate binding) post state := by
  have kept : ArenasKept state
      { state with bindings := state.bindings ++ [binding] } :=
    ⟨rfl, .append _ _ _, List.prefix_rfl⟩
  exact runs_ret rfl (fun _ => kept) (fun fits => fits.keep kept rfl)
    fun _ => holds

/-- A mutable binding is given a value. -/
theorem scoped_write {id : Nat} {value : Value} {binding : Binding}
    (found : state.bindings[id]? = some binding)
    (mutable : binding.mutable = true) :
    (scoping final).Runs (write id value) (fun _ _ => True) state := by
  have kept : ArenasKept state (written state id value) := by
    refine ⟨rfl, .modify (Nat.zero_le id) ?_, List.prefix_rfl⟩
    intro other same immutable
    cases found.symm.trans same
    rw [mutable] at immutable
    cases immutable
  exact runs_writeSlot (fun _ _ => kept) (fun fits _ => fits.keep kept rfl)
    (fun _ _ => trivial) fun _ _ => nofun

/-- The state is shown before a computation. -/
theorem scoped_observe {note : Interpreter → Observation}
    {f : Unit → Interp α} {after : α → Interpreter → Prop}
    (shown : (note state).Scoped final)
    (rest : (scoping final).Runs (f ()) after state) :
    (scoping final).Runs (observe note >>= f) after state :=
  fun fits => ⟨shown, fun _ _ => rest fits⟩

/-- A name that does not resolve was reported. -/
theorem scoped_resolve {static : Static} {env : Environment}
    {point : Point} {name : String} (fits : Agrees static env state)
    (reported : static.scopes.resolve name = none →
      final.Reports .undefinedName) :
    (scoping final).Runs (resolve point env name)
      (fun id after => after = state ∧ env.resolve name = some id)
      state := by
  have alike := fits.resolve name
  unfold Interp.resolve
  cases bound : env.resolve name with
  | some id => exact runs_pure ⟨rfl, rfl⟩
  | none =>
      rw [bound] at alike
      refine scoped_fail (reported ?_)
      cases known : static.scopes.resolve name with
      | none => rfl
      | some symbol => simp [known] at alike

end Rules

end NetLang
