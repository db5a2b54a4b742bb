import NetLang.Semantic.Walk

/-!
# The context of the analyzer

An analysis puts back what it pushes, whatever it reports.  The types that
the analyzer knows about keep having definitions, so that no read of a
definition is a panic.
-/

namespace NetLang

namespace Analyzer

/-- The context is as before, and the errors have at most been added to.
Only the innermost scope may have more declarations. -/
structure Steady (before after : Analyzer) : Prop where
  reports : before.reports <+: after.reports
  types : after.types = before.types
  depth : after.scopes.length = before.scopes.length
  outer : after.scopes.tail = before.scopes.tail
  loops : after.loops = before.loops
  functionDepth : after.functionDepth = before.functionDepth
  parallelBoundaries : after.parallelBoundaries = before.parallelBoundaries
  returnType : after.returnType = before.returnType
  context : after.context = before.context
  currentSpan : after.currentSpan = before.currentSpan
  sound : before.toStatic.Sound → after.toStatic.Sound
  panicked : before.toStatic.Sound → before.scopes ≠ [] →
    after.panicked = before.panicked

theorem Steady.errors {before after : Analyzer}
    (steady : before.Steady after) : before.errors <+: after.errors :=
  steady.reports.map _

theorem Steady.refl (analyzer : Analyzer) : analyzer.Steady analyzer :=
  ⟨List.prefix_rfl, rfl, rfl, rfl, rfl, rfl, rfl, rfl, rfl, rfl,
    fun sound => sound, fun _ _ => rfl⟩

theorem Steady.trans {first second third : Analyzer}
    (before : first.Steady second) (after : second.Steady third) :
    first.Steady third where
  reports := before.reports.trans after.reports
  types := after.types.trans before.types
  depth := after.depth.trans before.depth
  outer := after.outer.trans before.outer
  loops := after.loops.trans before.loops
  functionDepth := after.functionDepth.trans before.functionDepth
  parallelBoundaries :=
    after.parallelBoundaries.trans before.parallelBoundaries
  returnType := after.returnType.trans before.returnType
  context := after.context.trans before.context
  currentSpan := after.currentSpan.trans before.currentSpan
  panicked := by
    intro sound within
    have still : second.scopes ≠ [] := by
      intro empty
      have length := before.depth
      rw [empty] at length
      exact within (List.length_eq_zero_iff.mp length.symm)
    exact (after.panicked (before.sound sound) still).trans
      (before.panicked sound within)
  sound := fun sound => after.sound (before.sound sound)

section Steps

variable (analyzer : Analyzer)

theorem report_steady (point : Point) (kind : SemanticErrorKind)
    (message : String) :
    analyzer.Steady (analyzer.report point kind message) :=
  { Steady.refl analyzer with
    reports := List.prefix_append _ _ }

theorem visit_steady (point : Point) (node : Node) :
    analyzer.Steady (analyzer.visit point node) :=
  { Steady.refl analyzer with }

/-- Reads of what is known do not fail. -/
theorem reading_steady {α : Type} (read : Read α)
    (inside : analyzer.toStatic.Sound → read.failed = false) :
    analyzer.Steady (analyzer.reading read) :=
  { Steady.refl analyzer with
    panicked := fun sound _ => by
      rw [reading, inside sound, Bool.or_false] }

/-- A declaration is added to the innermost scope, or reported. -/
theorem declare_steady (point : Point) (name : String) (symbol : Symbol)
    (declarable : Declarable analyzer.types symbol) :
    analyzer.Steady (analyzer.declare point name symbol) := by
  unfold declare Scopes.declare
  cases scopes : analyzer.scopes with
  | nil => exact report_steady _ _ _ _
  | cons scope outer =>
      cases found : NameMap.get? scope.symbols name with
      | some other =>
          simp only [found]
          exact report_steady _ _ _ _
      | none =>
          simp only [found]
          refine { Steady.refl analyzer with
            depth := by simp [scopes]
            outer := by simp [scopes]
            sound := fun sound => ⟨?_, sound.returnType⟩ }
          have known := sound.symbols
          rw [scopes] at known
          intro inner member entry inside
          rcases List.mem_cons.mp member with rfl | later
          · rcases List.mem_cons.mp inside with rfl | old
            · exact declarable
            · exact known scope List.mem_cons_self entry old
          · exact known inner (List.mem_cons_of_mem _ later) entry inside

theorem located_steady {analysis : Analyzer → Analyzer}
    (span : Option Span) (keeps : Keeps Steady analysis) :
    analyzer.Steady (analyzer.located span analysis) := by
  have inner := keeps { analyzer with
    currentSpan := span.or analyzer.currentSpan }
  exact { inner with currentSpan := rfl }

theorem inContext_steady {analysis : Analyzer → Analyzer}
    (label : String) (keeps : Keeps Steady analysis) :
    analyzer.Steady (analyzer.inContext label analysis) := by
  have inner := keeps
    { analyzer with context := analyzer.context ++ [label] }
  exact { inner with context := by simp [inContext, inner.context] }

/-- The scope that was entered is the one that is left. -/
theorem inScope_steady {analysis : Analyzer → Analyzer}
    (point : Point) (keeps : Keeps Steady analysis) :
    analyzer.Steady (analyzer.inScope point analysis) := by
  have inner := keeps
    { analyzer with scopes := ⟨point, []⟩ :: analyzer.scopes }
  have outer : (analysis { analyzer with
      scopes := ⟨point, []⟩ :: analyzer.scopes }).scopes.tail =
        analyzer.scopes := inner.outer
  have entered : analyzer.toStatic.Sound → Static.Sound
      { analyzer.toStatic with
        scopes := ⟨point, []⟩ :: analyzer.scopes } := by
    intro sound
    refine ⟨?_, sound.returnType⟩
    intro scope member entry inside
    rcases List.mem_cons.mp member with rfl | later
    · cases inside
    · exact sound.symbols scope later entry inside
  refine { inner with
    depth := by simp only [inScope, outer]
    outer := by simp only [inScope, outer]
    sound := fun sound => ?_
    panicked := fun sound within => ?_ }
  · have after := inner.sound (entered sound)
    refine ⟨?_, after.returnType⟩
    exact fun scope member => after.symbols scope
      (List.mem_of_mem_tail member)
  · have same := inner.panicked (entered sound) (List.cons_ne_nil _ _)
    have length := inner.depth
    have deep : analyzer.scopes.length ≠ 0 :=
      fun empty => within (List.length_eq_zero_iff.mp empty)
    simp only [List.length_cons] at length
    simp only [inScope, same, length, Bool.or_eq_left_iff_imp,
      decide_eq_true_eq]
    omega

theorem inFunction_steady {analysis : Analyzer → Analyzer}
    (returnAnnotated : Option TypeAnnotation)
    (keeps : Keeps Steady analysis) :
    analyzer.Steady (analyzer.inFunction returnAnnotated analysis) := by
  have inner := keeps { analyzer with
    functionDepth := analyzer.functionDepth + 1
    loops := []
    returnType := annotationType analyzer.toStatic returnAnnotated }
  have entered : analyzer.toStatic.Sound → Static.Sound
      { analyzer.toStatic with
        returnType := annotationType analyzer.toStatic returnAnnotated } :=
    fun sound => ⟨sound.symbols, fun _ known => annotationType_defined known⟩
  refine { inner with
    loops := rfl
    returnType := rfl
    functionDepth := by simp [inFunction, inner.functionDepth]
    sound := fun sound => ?_
    panicked := fun sound => inner.panicked
      ⟨(entered sound).symbols, (entered sound).returnType⟩ }
  have after := inner.sound
    ⟨(entered sound).symbols, (entered sound).returnType⟩
  refine ⟨after.symbols, ?_⟩
  intro ty known
  have same : (analyzer.inFunction returnAnnotated analysis).types =
      analyzer.types := inner.types
  exact same ▸ sound.returnType ty known

theorem inLoop_steady {analysis : Analyzer → Analyzer} (kind : LoopKind)
    (keeps : Keeps Steady analysis) :
    analyzer.Steady (analyzer.inLoop kind analysis) := by
  have inner := keeps { analyzer with loops := kind :: analyzer.loops }
  exact { inner with
    loops := by simp [inLoop, inner.loops]
    sound := fun sound =>
      have after := inner.sound ⟨sound.symbols, sound.returnType⟩
      ⟨after.symbols, after.returnType⟩
    panicked := fun sound =>
      inner.panicked ⟨sound.symbols, sound.returnType⟩ }

theorem inParallel_steady {analysis : Analyzer → Analyzer}
    (keeps : Keeps Steady analysis) :
    analyzer.Steady (analyzer.inParallel analysis) := by
  have inner := keeps { analyzer with
    loops := .parallel :: analyzer.loops
    parallelBoundaries := (analyzer.scopes.depth, analyzer.functionDepth) ::
      analyzer.parallelBoundaries }
  exact { inner with
    loops := by simp [inParallel, inLoop, inner.loops]
    parallelBoundaries := by
      simp [inParallel, inLoop, inner.parallelBoundaries]
    sound := fun sound =>
      have after := inner.sound ⟨sound.symbols, sound.returnType⟩
      ⟨after.symbols, after.returnType⟩
    panicked := fun sound =>
      inner.panicked ⟨sound.symbols, sound.returnType⟩ }

end Steps

theorem steady_traverses : Traverses Steady where
  refl := .refl
  trans := .trans
  report := report_steady
  visit := visit_steady
  declareType := fun analyzer _ => { Steady.refl analyzer with }
  reading := fun analyzer read => reading_steady analyzer read
  located := fun span keeps analyzer => located_steady analyzer span keeps
  declare := declare_steady
  inContext := fun label keeps analyzer =>
    inContext_steady analyzer label keeps
  inScope := fun point keeps analyzer => inScope_steady analyzer point keeps
  inFunction := fun annotated keeps analyzer =>
    inFunction_steady analyzer annotated keeps
  inLoop := fun kind keeps analyzer => inLoop_steady analyzer kind keeps
  inParallel := fun keeps analyzer => inParallel_steady analyzer keeps

theorem new_sound (types : TypeRegistry) :
    (Analyzer.new types).toStatic.Sound := by
  refine ⟨?_, fun _ known => nomatch known⟩
  have untyped : ∀ entry ∈ Scopes.builtins, entry.2.types = [] := by
    decide
  intro scope member entry inside ty mentioned
  rw [List.mem_singleton.mp member] at inside
  rw [untyped entry inside] at mentioned
  cases mentioned

end Analyzer

open Analyzer in
/-- The context of the analyzer is balanced.  From any state, the analysis of
an expression, of a statement, of a body and of a list puts back what it
pushes and only adds to the errors; if the types that are known there have
definitions, it does not panic, neither by removing a scope that it has not
entered nor by a read of a definition that is out of bounds.  So the analysis
of a program, which starts with no types, never panics. -/
theorem analysis_balanced :
    (∀ (analyzer : Analyzer) point,
      (∀ node, analyzer.Steady (Analyzer.expression point node analyzer)) ∧
      (∀ node, analyzer.Steady
        (Analyzer.statement .listed point node analyzer)) ∧
      (∀ node, analyzer.Steady
        (Analyzer.bodyInCurrentScope point node analyzer)) ∧
      (∀ list, analyzer.Steady (Analyzer.statements point list analyzer))) ∧
    (∀ identity program, (analysis identity program).panicked = false ∧
      (Analyzer.new (.new identity program)).Steady
        (analysis identity program)) := by
  refine ⟨?_, ?_⟩
  · intro analyzer point
    refine ⟨?_, ?_, ?_, ?_⟩
    · exact fun node => steady_traverses.expression point node analyzer
    · exact fun node => steady_traverses.statement .listed point node analyzer
    · exact fun node => steady_traverses.statement .body point node analyzer
    · exact fun list => steady_traverses.statements point list analyzer
  · intro identity program
    have steady : (Analyzer.new (.new identity program)).Steady
        (analysis identity program) :=
      steady_traverses.inScope []
        (steady_traverses.statements [] program.statements)
        (Analyzer.new (.new identity program))
    exact ⟨steady.panicked (new_sound _) (List.cons_ne_nil _ _), steady⟩

end NetLang
