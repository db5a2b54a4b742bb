import NetLang.Theory.ControlFlow
import NetLang.Theory.ScopedStatements

/-!
# Scoped programs

In every run of a program without duplicate declarations the environments
match the scopes of the analyzer.
-/

namespace NetLang

open Interp Discipline

variable {final : Analyzer} {static : Static} {state : Interpreter}
  {point : Point}

section Lists

variable [Formatting] {self : Evaluator} (within : self.Scoped final)
  (single : ¬ final.Reports .duplicateDeclaration)
include within single

theorem scoped_executeAll {level : NameMap Nat} {outer : Environment}
    {i : Nat} {entries : List (Stmt × Option Nat)}
    (covers : final.Covers static
      (Analyzer.listed point i (entries.map Prod.fst)))
    (ready : SlotsReady static.types state entries)
    (fits : Agrees static (level :: outer) state) :
    (scoping final).Runs (executeAll self point i entries (level :: outer))
      (fun _ _ => True) state := by
  induction entries generalizing i static level state with
  | nil => exact runs_pure trivial
  | cons entry rest induction =>
      obtain ⟨node, slot⟩ := entry
      obtain ⟨first, others⟩ := Analyzer.covers_listed covers
      have here : SlotsReady static.types state [(node, slot)] :=
        fun other id member => ready other id
          (List.mem_singleton.mp member ▸ List.mem_cons_self)
      refine (scoped_execute within single first here fits).bind
        fun (flow, env) next kept _ held => ?_
      obtain ⟨level, same, fits⟩ := held
      simp only at same
      subst same
      have types : (static.passed node).types = static.types := by
        rw [(static.passed_beside node).same]
      have later : SlotsReady (static.passed node).types next rest := by
        rw [types]
        exact (SlotsReady.keep (fun other id member => ready other id
          (List.mem_cons_of_mem _ member)) kept)
      cases flow with
      | normal => exact induction others later fits
      | «continue» => exact runs_pure trivial
      | «break» => exact runs_pure trivial
      | «return» value => exact runs_pure trivial

theorem scoped_statements {level : NameMap Nat} {outer : Environment}
    {list : List Stmt}
    (covers : final.Covers static (Analyzer.statements point list))
    (fits : Agrees static (level :: outer) state) :
    (scoping final).Runs (statements self point list (level :: outer))
      (fun _ _ => True) state := by
  obtain ⟨hoists, lists⟩ := Analyzer.covers_statements covers
  have kept := hoist_kept state point list level outer
  have hoisted := hoist_hoisted state point list level outer
  have entered := hoisted_matches single rfl hoisted hoists (fits.keep kept)
  have types : (static.hoisted list).types = static.types := by
    rw [(static.hoisted_beside list).same]
  have same : resolveAnnotated state.types =
      resolveAnnotated (static.hoisted list).types := by
    funext annotated
    rw [types]
    exact fits.annotation annotated
  have ready : SlotsReady (static.hoisted list).types
      (state.hoist point list level outer)
      (list.zip (slotsFrom state.bindings.length list)) := by
    intro node slot member name annotated value shape
    rw [← same]
    exact hoist_slotsReady state point list level outer node slot member name
      annotated value shape
  have zipped : (list.zip (slotsFrom state.bindings.length list)).map
      Prod.fst = list :=
    List.map_fst_zip (le_of_eq (slotsFrom_length _ _).symm)
  intro functions
  have declared : final.Fits (state.hoist point list level outer) := by
    intro function member
    rcases List.mem_append.mp member with old | new
    · exact (functions function old).keep kept
    · exact hoisted_scoped single rfl hoisted lists entered function new
  unfold wp
  rw [statements_eq]
  refine wp_mono (scoped_executeAll within single (zipped.symm ▸ lists) ready
    entered declared) fun result after held => ?_
  exact ⟨kept.trans held.rel, held.inv, held.ok, held.error⟩

theorem scoped_body {level : NameMap Nat} {outer : Environment} :
    ∀ {node : Stmt} {state : Interpreter},
      final.Covers static (Analyzer.statement .body point node) →
      Agrees static (level :: outer) state →
      (scoping final).Runs (body self point node (level :: outer))
        (fun _ _ => True) state
  | .located span inner, state => fun covers fits => by
      rw [body]
      refine scoped_withSpan (scoped_body
        (Analyzer.covers_locatedStatement covers) ?_) fun _ _ _ => trivial
      exact fits.keep (SameArenas.kept ⟨rfl, rfl, rfl⟩)
  | .block list, state => fun covers fits => scoped_observe trivial
      (scoped_statements within single (Analyzer.covers_bodyBlock covers) fits)
  | .type _ _, _ | .break, _ | .continue, _ | .parallel _ _ _, _
  | .match _ _, _ | .let _ _ _, _ | .expression _, _ | .if _ _ _, _
  | .while _ _, _ | .for _ _ _, _ | .function _ _ _ _, _ | .return _, _ =>
      fun covers fits => scoped_observe trivial
        (scoped_statements within single
          (Analyzer.covers_single rfl (fun _ => nofun) covers) fits)

theorem Evaluator.Scoped.step : self.step.Scoped final where
  expression := fun covers fits => scoped_expression within single covers fits
  body := fun covers fits => scoped_body within single covers fits
  whileLoop := fun tested covers types scopes fits =>
    scoped_whileLoop within tested covers types scopes fits

end Lists

section Programs

variable [Formatting]

/-- Every evaluator keeps to the scopes. -/
theorem evaluator_scoped (single : ¬ final.Reports .duplicateDeclaration)
    (clock : Nat) : (evaluator clock).Scoped final := by
  induction clock with
  | zero =>
      have stops : ∀ {α : Type} {post : α → Interpreter → Prop}
          (state : Interpreter), (scoping final).Runs
            (Interp.stop .outOfFuel) post state :=
        fun _ => runs_stop fun _ => nofun
      exact ⟨fun _ _ => stops _, fun _ _ => stops _,
        fun _ _ _ _ _ => stops _⟩
  | succ clock induction => exact induction.step single

theorem scoped_callMain (single : ¬ final.Reports .duplicateDeclaration)
    {clock : Nat} {program : Program} {env : Environment} :
    (scoping final).Runs (callMain (evaluator clock) program env)
      (fun _ _ => True) state := by
  refine scoped_ite (fun _ => ?_) fun _ => runs_pure trivial
  split
  · exact scoped_panic
  · split
    · exact runs_pure trivial
    · refine (Leaf.binding _).andThen fun binding next _ => ?_
      split
      · exact scoped_callValue (evaluator_scoped single clock) single
          fun _ _ _ _ _ _ _ => .inr (.inl rfl)
      · exact runs_pure trivial

omit [Formatting] in
/-- The built-in scope has the same names as the outermost level. -/
theorem forall₂_matches {R : Symbol → Nat → Prop} {symbols : NameMap Symbol}
    {level : NameMap Nat}
    (pairs : List.Forall₂ (fun entry slot => entry.1 = slot.1 ∧
      R entry.2 slot.2) symbols level) (name : String) :
    Option.Rel R (NameMap.get? symbols name) (NameMap.get? level name) := by
  induction pairs with
  | nil => exact .none
  | @cons entry slot symbols level first rest induction =>
      obtain ⟨key, symbol⟩ := entry
      obtain ⟨other, id⟩ := slot
      obtain ⟨same, related⟩ := first
      simp only at same related
      subst same
      have inserts : ∀ {α : Type} (map : NameMap α) (value : α),
          ((key, value) :: map : NameMap α) =
            NameMap.insert map key value := fun _ _ => rfl
      rw [inserts, inserts, NameMap.get?_insert, NameMap.get?_insert]
      split
      · exact .some related
      · exact induction

/-- Where the analysis of a program starts. -/
def Program.topLevel (program : Program) : Static :=
  { (Analyzer.new (TypeRegistry.new 0 program)).toStatic with
    scopes := ⟨[], []⟩ :: Scopes.new }

omit [Formatting] in
theorem program_covered (program : Program) :
    (analysis 0 program).Covers program.topLevel
      (Analyzer.statements [] program.statements) := by
  have whole : (analysis 0 program).Covers
      (Analyzer.new (TypeRegistry.new 0 program)).toStatic
      (fun analyzer => analyzer.inScope []
        (Analyzer.statements [] program.statements)) :=
    ⟨_, rfl, .refl _⟩
  exact whole.inScope

omit [Formatting] in
theorem initialEnvironment_matches (identity : Nat) (limits : Limits)
    (program : Program) :
    Agrees program.topLevel initialEnvironment
      (initialState identity limits program) := by
  refine ⟨rfl, .cons (fun _ => .none) (.cons (forall₂_matches ?_) .nil)⟩
  simp [Scopes.builtins, builtinScope, Builtin.all, initialState,
    builtinBindings, Symbol.At, Symbol.Binds, Value.Callable]

theorem execution_scoped {clock identity : Nat} {limits : Limits}
    {program : Program}
    (single : ¬ (analysis 0 program).Reports .duplicateDeclaration) :
    (execution clock identity limits program).Safe
      (scopedContract (analysis 0 program))
      fun ending => (analysis 0 program).Settles ending.1 := by
  have runs : (scoping (analysis 0 program)).Runs
      (runProgram (evaluator clock) program) (fun _ _ => True)
      (initialState identity limits program) := by
    unfold runProgram
    split
    · next node _ =>
        have changes : Leaf (analysis 0 program) (modify fun state =>
            { state with currentSpan := node.span }) :=
          .ret _ _ (fun _ => rfl) fun _ => ⟨rfl, rfl, rfl⟩
        exact changes.andThen fun _ _ _ => scoped_fail trivial
    · exact (scoped_statements (evaluator_scoped single clock) single
        (program_covered program)
        (initialEnvironment_matches identity limits program)).bind
        fun _ _ _ _ _ => scoped_callMain single
  exact (runs nofun).mono fun ending held => settles_after held

theorem workerThread_scoped
    (single : ¬ final.Reports .duplicateDeclaration) {worker : Worker}
    (known : worker.Scoped final) :
    (workerThread worker).Safe (scopedContract final)
      ((scopedContract final).done worker) := by
  refine Comp.Safe.bind (scoped_executeWorker (evaluator_scoped single _)
    single known) fun result completed => ?_
  rcases result with (error | _ | _) | outcome
  · exact completed.elim
  · trivial
  · trivial
  · exact completed

theorem setup_scoped (single : ¬ final.Reports .duplicateDeclaration)
    (host : Host effects) : (setup host).Meets (scopedContract final) where
  host := fun _ _ _ _ _ _ => trivial
  job := fun _ known => workerThread_scoped single known
  panicked := fun _ _ => trivial

/-- A run of a program without duplicate declarations keeps to the scopes. -/
theorem runOf_scoped (host : Host effects) (clock identity : Nat)
    (limits : Limits) {program : Program} (choices : List Nat)
    (single : ¬ (analysis 0 program).Reports .duplicateDeclaration) :
    (runOf host clock identity limits program choices).Safe
      (scopedContract (analysis 0 program))
      fun ending => (analysis 0 program).Settles ending.1 :=
  Machine.run_safe choices (setup_scoped single host)
    (Machine.start_safe (execution_scoped single))

end Programs

end NetLang
