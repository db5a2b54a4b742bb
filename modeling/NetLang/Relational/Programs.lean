import NetLang.Relational.Statements

/-!
# A program and its rewriting

The two executions start in related states, and end alike.
-/

namespace NetLang

open Interp

section Registry

variable {rewriting : Rewriting}

/-- A definition after the rewriting. -/
def Rewriting.definition (rewriting : Rewriting)
    (definition : String × List TypeField) : String × List TypeField :=
  (definition.1, definition.2.map rewriting.field)

theorem collect_rewriting (list : List Stmt)
    (definitions : List (String × List TypeField)) :
    TypeRegistry.collect (rewriting.stmtList list)
        (definitions.map rewriting.definition) =
      (TypeRegistry.collect list definitions).map rewriting.definition := by
  induction list generalizing definitions with
  | nil => rfl
  | cons node rest induction =>
      simp only [Rewriting.stmtList, TypeRegistry.collect]
      rw [rewriting.stmt_unspanned]
      cases shape : node.unspanned with
      | type name fields =>
          simp only [Rewriting.stmt, List.any_map]
          have known : (definitions.any
              ((fun definition : String × List TypeField =>
                definition.1 == name) ∘ rewriting.definition)) =
              definitions.any fun definition => definition.1 == name := rfl
          rw [known]
          split
          · exact induction definitions
          · have grown := induction (definitions ++ [(name, fields)])
            rw [List.map_append] at grown
            exact grown
      | parallel variableName iterable body =>
          by_cases serial : rewriting.parallel = true
          · simp only [Rewriting.stmt, if_pos serial]
            exact induction definitions
          · simp only [Rewriting.stmt, if_neg serial]
            exact induction definitions
      | located span inner =>
          exact absurd shape (Stmt.unspanned_ne_located node span inner)
      | _ =>
          simp only [Rewriting.stmt]
          exact induction definitions

theorem typesAgree_new {matching : Matching} {identity identity' : Nat}
    (program : Program) (tokens : matching.token identity identity') :
    TypesAgree rewriting matching (.new identity program)
      (.new identity' (rewriting.program program)) :=
  ⟨tokens, collect_rewriting program.statements []⟩

end Registry

section Main

variable (rewriting : Rewriting)

theorem isMain_rewriting (node : Stmt) :
    (rewriting.stmt node).isMain = node.isMain := by
  unfold Stmt.isMain
  rw [rewriting.stmt_unspanned]
  cases shape : node.unspanned with
  | parallel variableName iterable body =>
      by_cases serial : rewriting.parallel = true
      · simp only [Rewriting.stmt, if_pos serial]
      · simp only [Rewriting.stmt, if_neg serial]
  | located span inner =>
      exact absurd shape (Stmt.unspanned_ne_located node span inner)
  | _ => simp only [Rewriting.stmt]

theorem isMainWithParameters_rewriting (node : Stmt) :
    (rewriting.stmt node).isMainWithParameters =
      node.isMainWithParameters := by
  unfold Stmt.isMainWithParameters
  rw [rewriting.stmt_unspanned]
  cases shape : node.unspanned with
  | function name parameters returnAnnotated body =>
      simp only [Rewriting.stmt, List.isEmpty_map]
  | parallel variableName iterable body =>
      by_cases serial : rewriting.parallel = true
      · simp only [Rewriting.stmt, if_pos serial]
      · simp only [Rewriting.stmt, if_neg serial]
  | located span inner =>
      exact absurd shape (Stmt.unspanned_ne_located node span inner)
  | _ => simp only [Rewriting.stmt]

theorem any_isMain_rewriting (list : List Stmt) :
    (rewriting.stmtList list).any Stmt.isMain = list.any Stmt.isMain := by
  rw [rewriting.stmtList_eq_map, List.any_map]
  congr 1
  funext node
  exact isMain_rewriting rewriting node

theorem find_isMainWithParameters_rewriting (list : List Stmt) :
    (rewriting.stmtList list).find? Stmt.isMainWithParameters =
      (list.find? Stmt.isMainWithParameters).map rewriting.stmt := by
  rw [rewriting.stmtList_eq_map, List.find?_map]
  congr 2
  funext node
  exact isMainWithParameters_rewriting rewriting node

end Main

section

variable [Formatting] {simulation : Simulation effects String}
  {comparison : Comparison} {situation : Situation} {world : World}
  {env env' : Environment} {worker : Bool} {given given' : Evaluator}
  (similar : Similar simulation comparison worker given given')
  (inside : situation.worker = worker)
  (supports : Supports simulation comparison)
  (prints : PrintsAlike simulation comparison worker)

include similar inside supports prints

theorem alike_callMain (program : Program)
    (environments : EnvRel world env env') :
    Alike simulation comparison situation world comparison.values
      (callMain given program env)
      (callMain given' (comparison.rewriting.program program) env') := by
  have same : (comparison.rewriting.program program).statements.any
      Stmt.isMain = program.statements.any Stmt.isMain :=
    any_isMain_rewriting comparison.rewriting program.statements
  unfold callMain
  by_cases main : program.statements.any Stmt.isMain = true
  · rw [if_pos main, if_pos (same.trans main)]
    cases environments with
    | nil => exact alike_stop trivial
    | cons head tail =>
        dsimp only
        obtain ⟨missing, missing'⟩ | ⟨id, id', found, found', slot⟩ :=
          optionRel_cases (head.get? "main")
        · rw [missing, missing']
          exact alike_pure trivial
        · rw [found, found']
          apply (alike_binding slot).bind
          intro larger extends' b b' related
          obtain ⟨missing, missing'⟩ | ⟨value, value', held, held', values⟩ :=
            optionRel_cases related.value
          · rw [missing, missing']
            exact alike_pure trivial
          · rw [held, held']
            match value, value', values with
            | .function id, .function id', handle =>
                have functions : Value.Rel (comparison.matching larger)
                    (.function id) (.function id') := handle
                exact alike_callValue similar inside [] supports prints
                  functions trivial
            | .record _ _ _ _, .record _ _ _ _, _
            | .integer _, .integer _, _ | .float _, .float _, _
            | .string _, .string _, _ | .bytes _, .bytes _, _
            | .connection _, .connection _, _ | .boolean _, .boolean _, _
            | .duration _, .duration _, _ | .null, .null, _
            | .object _, .object _, _ | .array _, .array _, _
            | .print, .print, _ | .builtin _, .builtin _, _ =>
                exact alike_pure trivial
  · rw [if_neg main, if_neg (same.symm ▸ main)]
    exact alike_pure trivial

/-- The top level of a program and of its rewriting. -/
theorem alike_runProgram
    (parallels : ParallelAlike simulation comparison worker given given')
    (top : situation.depth = 0) (program : Program)
    (fits : ∀ node ∈ program.statements,
      node.Fits comparison.serial situation.returns)
    (environments : EnvRel world initialEnvironment initialEnvironment) :
    Alike simulation comparison situation world comparison.values
      (runProgram given program)
      (runProgram given' (comparison.rewriting.program program)) := by
  unfold runProgram
  simp only [Rewriting.program]
  rw [find_isMainWithParameters_rewriting]
  cases program.statements.find? Stmt.isMainWithParameters with
  | some node =>
      intro before before' states
      have moved : States comparison situation world
          { before with currentSpan := node.span }
          { before' with
            currentSpan := (comparison.rewriting.stmt node).span } :=
        { states with }
      exact holds_ret (.refl world) moved (failure_rel moved [] [] _) rfl
  | none =>
      simp only [Option.map_none]
      unfold runStatements
      apply (alike_statements similar inside top supports parallels []
        program.statements fits environments).bind
      rintro larger extends' ⟨_, env⟩ ⟨_, env'⟩ ⟨_, envs⟩
      exact alike_callMain similar inside supports prints program envs

end

section Initial

variable (comparison : Comparison)

/-- At the start only the slots of the built-in functions correspond. -/
def World.initial : World where
  slot a a' := a = a' ∧ a < builtinBindings.length
  handle a a' := comparison.serial = false ∧ a = a'

def Situation.initial : Situation :=
  ⟨0, true, false⟩

theorem initialEnvironment_rel :
    EnvRel (World.initial comparison) initialEnvironment
      initialEnvironment := by
  refine .cons .nil (.cons ?_ .nil)
  rw [ScopeRel, List.forall₂_same]
  intro entry member
  refine ⟨rfl, rfl, ?_⟩
  have bounded : ∀ entry ∈ builtinScope,
      entry.2 < builtinBindings.length := by decide
  exact bounded entry member

theorem builtin_rel {binding : Binding} (member : binding ∈ builtinBindings) :
    BindingRel comparison (World.initial comparison) binding binding := by
  have atoms : ∀ binding ∈ builtinBindings, binding.annotated = none ∧
      ∃ value, binding.value = some value ∧ value.isStructured = false := by
    intro binding member
    simp only [builtinBindings, List.mem_cons, List.mem_map] at member
    rcases member with rfl | ⟨builtin, _, rfl⟩
    · exact ⟨rfl, _, rfl, rfl⟩
    · exact ⟨rfl, _, rfl, rfl⟩
  obtain ⟨unannotated, value, held, atom⟩ := atoms binding member
  refine ⟨rfl, ?_, ?_⟩
  · rw [unannotated, comparison.keep_none]
  · rw [held]
    exact .some (Value.rel_atom atom)

theorem states_initial {identity identity' : Nat} {limits limits' : Limits}
    (program : Program) (tokens : comparison.token identity identity')
    (faithful : ∀ {a b a' b'}, comparison.token a a' →
      comparison.token b b' → (a = b ↔ a' = b'))
    (room : LimitsRel comparison.sameLimits limits limits') :
    States comparison .initial (World.initial comparison)
      (initialState identity limits program)
      (initialState identity' limits'
        (comparison.rewriting.program program)) where
  types := typesAgree_new program tokens
  limits := room
  callStack := rfl
  depth := rfl
  depth' := rfl
  returnType _ := comparison.keep_none.symm
  runtime := by
    unfold RuntimeRel
    split
    · rfl
    · exact ⟨rfl, rfl, .none⟩
  worker := rfl
  buffer := rfl
  bindings := by
    rintro a _ ⟨rfl, bound⟩
    have found : builtinBindings[a]? = some builtinBindings[a] :=
      List.getElem?_eq_getElem bound
    exact ⟨_, _, found, found,
      builtin_rel comparison (List.getElem_mem bound)⟩
  functions := fun _ => .none
  slots := by
    rintro a b _ _ ⟨rfl, _⟩ ⟨rfl, _⟩
    exact Iff.rfl
  faithful := ⟨by
    rintro a b _ _ ⟨_, rfl⟩ ⟨_, rfl⟩
    exact Iff.rfl, faithful⟩
  lengths := fun _ => ⟨rfl, rfl⟩
  slot := by
    rintro _ a _ ⟨rfl, _⟩
    rfl
  handle := fun parallel => ⟨And.right, fun same => ⟨parallel, same⟩⟩
  defined := by
    rintro serial a a' ⟨parallel, _⟩
    rw [serial] at parallel
    cases parallel
  captured := by simp [initialState]
  inWorker := fun _ => rfl
  alone := fun _ => rfl

end Initial

end NetLang
