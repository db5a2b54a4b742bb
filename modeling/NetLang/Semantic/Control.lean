import NetLang.Semantic.Walk
import NetLang.Theory.Jumps

/-!
# Control flow that the analyzer accepts

The analyzer only adds reports, and it leaves the loops, the depth of
functions and the parallel boundaries as it found them.  If it reports
nothing, every jump is taken inside of the program.
-/

namespace NetLang

namespace Analyzer

/-- The analyzer has gone on to another one, in the same control context. -/
structure Extends (before after : Analyzer) : Prop where
  reports : before.reports <+: after.reports
  loops : after.loops = before.loops
  functionDepth : after.functionDepth = before.functionDepth
  parallelBoundaries : after.parallelBoundaries = before.parallelBoundaries

theorem Extends.refl (analyzer : Analyzer) : analyzer.Extends analyzer :=
  ⟨List.prefix_rfl, rfl, rfl, rfl⟩

theorem Extends.trans {first second third : Analyzer}
    (before : first.Extends second) (after : second.Extends third) :
    first.Extends third :=
  ⟨before.reports.trans after.reports, after.loops.trans before.loops,
    after.functionDepth.trans before.functionDepth,
    after.parallelBoundaries.trans before.parallelBoundaries⟩

theorem Extends.clean {before after : Analyzer}
    (extends' : before.Extends after) (clean : after.reports = []) :
    before.reports = [] :=
  List.prefix_nil.mp (clean ▸ extends'.reports)

/-- An analysis that keeps the control context. -/
def Quiet (analysis : Analyzer → Analyzer) : Prop :=
  ∀ analyzer : Analyzer, analyzer.Extends (analysis analyzer)

theorem declare_extends (analyzer : Analyzer) (point : Point) (name : String)
    (symbol : Symbol) :
    analyzer.Extends (analyzer.declare point name symbol) := by
  unfold declare
  split
  · exact ⟨List.prefix_rfl, rfl, rfl, rfl⟩
  · exact ⟨List.prefix_append _ _, rfl, rfl, rfl⟩

/-- Every analysis keeps the control context. -/
theorem extending : Traverses Extends where
  refl := .refl
  trans := .trans
  report _ _ _ _ := ⟨List.prefix_append _ _, rfl, rfl, rfl⟩
  visit _ _ _ := ⟨List.prefix_rfl, rfl, rfl, rfl⟩
  declareType _ _ := ⟨List.prefix_rfl, rfl, rfl, rfl⟩
  reading _ _ _ := ⟨List.prefix_rfl, rfl, rfl, rfl⟩
  located span quiet analyzer := by
    obtain ⟨reports, loops, depth, boundaries⟩ := quiet
      { analyzer with currentSpan := span.or analyzer.currentSpan }
    exact ⟨reports, loops, depth, boundaries⟩
  declare analyzer point name symbol _ :=
    declare_extends analyzer point name symbol
  inContext label quiet analyzer := by
    obtain ⟨reports, loops, depth, boundaries⟩ := quiet
      { analyzer with context := analyzer.context ++ [label] }
    exact ⟨reports, loops, depth, boundaries⟩
  inScope point quiet analyzer := by
    obtain ⟨reports, loops, depth, boundaries⟩ := quiet
      { analyzer with scopes := ⟨point, []⟩ :: analyzer.scopes }
    exact ⟨reports, loops, depth, boundaries⟩
  inFunction returnAnnotated quiet analyzer := by
    obtain ⟨reports, _, depth, boundaries⟩ := quiet { analyzer with
      functionDepth := analyzer.functionDepth + 1
      loops := []
      returnType := annotationType analyzer.toStatic returnAnnotated }
    exact ⟨reports, rfl, congrArg (· - 1) depth, boundaries⟩
  inLoop kind quiet analyzer := by
    obtain ⟨reports, loops, depth, boundaries⟩ := quiet
      { analyzer with loops := kind :: analyzer.loops }
    exact ⟨reports, congrArg List.tail loops, depth, boundaries⟩
  inParallel quiet analyzer := by
    obtain ⟨reports, loops, depth, boundaries⟩ := quiet { analyzer with
      loops := .parallel :: analyzer.loops
      parallelBoundaries := (analyzer.scopes.depth, analyzer.functionDepth) ::
        analyzer.parallelBoundaries }
    exact ⟨reports, congrArg List.tail loops, depth,
      congrArg List.tail boundaries⟩

section Jumps

/-- Whether the context of the analyzer takes a jump. -/
def Allows (analyzer : Analyzer) : Jump → Prop
  | .break => ∃ outer, analyzer.loops = .serial :: outer
  | .continue => analyzer.loops ≠ []
  | .return => analyzer.functionDepth ≠ 0 ∧
      crossesParallel analyzer.toStatic = false

theorem Extends.allows {before after : Analyzer}
    (extends' : before.Extends after) {jump : Jump} :
    after.Allows jump ↔ before.Allows jump := by
  obtain ⟨_, loops, depth, boundaries⟩ := extends'
  cases jump <;> simp [Allows, crossesParallel, loops, depth, boundaries]

/-- An analysis that keeps the control context and accepts only jumps that
are taken there, and code of a certain kind. -/
def Accepts (jumps : List Jump) (tame : Prop)
    (analysis : Analyzer → Analyzer) : Prop :=
  ∀ analyzer : Analyzer, analyzer.Extends (analysis analyzer) ∧
    ((analysis analyzer).reports = [] →
      tame ∧ ∀ jump ∈ jumps, analyzer.Allows jump)

variable {jumps more : List Jump} {tame other : Prop}
  {analysis next : Analyzer → Analyzer}

theorem Quiet.accepts (quiet : Quiet analysis) : Accepts [] True analysis :=
  fun analyzer => ⟨quiet analyzer, fun _ => ⟨trivial, nofun⟩⟩

theorem Accepts.then (first : Accepts jumps tame analysis)
    (second : Accepts more other next) :
    Accepts (jumps ++ more) (tame ∧ other)
      fun analyzer => next (analysis analyzer) := by
  intro analyzer
  obtain ⟨kept, clean⟩ := first analyzer
  obtain ⟨keptAgain, cleanAgain⟩ := second (analysis analyzer)
  refine ⟨kept.trans keptAgain, fun none => ?_⟩
  obtain ⟨rest, restJumps⟩ := cleanAgain none
  obtain ⟨start, startJumps⟩ := clean (keptAgain.clean none)
  refine ⟨⟨start, rest⟩, fun jump member => ?_⟩
  rcases List.mem_append.mp member with here | later
  · exact startJumps jump here
  · exact kept.allows.mp (restJumps jump later)

theorem Accepts.after (accepts : Accepts jumps tame next)
    (quiet : Quiet analysis) :
    Accepts jumps tame fun analyzer => next (analysis analyzer) := by
  intro analyzer
  obtain ⟨kept, clean⟩ := accepts (analysis analyzer)
  refine ⟨(quiet analyzer).trans kept, fun none => ?_⟩
  obtain ⟨rest, allowed⟩ := clean none
  exact ⟨rest, fun jump member =>
    (quiet analyzer).allows.mp (allowed jump member)⟩

theorem Accepts.before (accepts : Accepts jumps tame analysis)
    (quiet : Quiet next) :
    Accepts jumps tame fun analyzer => next (analysis analyzer) := by
  intro analyzer
  obtain ⟨kept, clean⟩ := accepts analyzer
  exact ⟨kept.trans (quiet _), fun none => clean ((quiet _).clean none)⟩

theorem Accepts.located (accepts : Accepts jumps tame analysis)
    (span : Option Span) :
    Accepts jumps tame fun analyzer => analyzer.located span analysis := by
  intro analyzer
  obtain ⟨kept, clean⟩ := accepts
    { analyzer with currentSpan := span.or analyzer.currentSpan }
  exact ⟨⟨kept.reports, kept.loops, kept.functionDepth,
    kept.parallelBoundaries⟩, clean⟩

theorem Accepts.inContext (accepts : Accepts jumps tame analysis)
    (label : String) :
    Accepts jumps tame fun analyzer =>
      analyzer.inContext label analysis := by
  intro analyzer
  obtain ⟨kept, clean⟩ := accepts
    { analyzer with context := analyzer.context ++ [label] }
  exact ⟨⟨kept.reports, kept.loops, kept.functionDepth,
    kept.parallelBoundaries⟩, clean⟩

theorem Accepts.inScope (accepts : Accepts jumps tame analysis)
    (point : Point) :
    Accepts jumps tame fun analyzer => analyzer.inScope point analysis := by
  intro analyzer
  obtain ⟨kept, clean⟩ := accepts
    { analyzer with scopes := ⟨point, []⟩ :: analyzer.scopes }
  exact ⟨⟨kept.reports, kept.loops, kept.functionDepth,
    kept.parallelBoundaries⟩, clean⟩

/-- A call takes `return`, and nothing else reaches a function. -/
theorem Accepts.inFunction (accepts : Accepts jumps tame analysis)
    (returnAnnotated : Option TypeAnnotation) :
    Accepts [] ((∀ jump ∈ jumps, jump = .return) ∧ tame) fun analyzer =>
      analyzer.inFunction returnAnnotated analysis := by
  intro analyzer
  obtain ⟨kept, clean⟩ := accepts { analyzer with
    functionDepth := analyzer.functionDepth + 1
    loops := []
    returnType := annotationType analyzer.toStatic returnAnnotated }
  refine ⟨⟨kept.reports, rfl, ?_, kept.parallelBoundaries⟩, fun none => ?_⟩
  · exact congrArg (· - 1) kept.functionDepth
  · obtain ⟨rest, allowed⟩ := clean none
    refine ⟨⟨fun jump member => ?_, rest⟩, nofun⟩
    have taken := allowed jump member
    cases jump with
    | «break» =>
        obtain ⟨outer, same⟩ := taken
        cases same
    | «continue» => exact absurd rfl taken
    | «return» => rfl

/-- A serial loop takes `break` and `continue`. -/
theorem Accepts.inLoop (accepts : Accepts jumps tame analysis) :
    Accepts (jumps.filter (· = .return)) tame fun analyzer =>
      analyzer.inLoop .serial analysis := by
  intro analyzer
  obtain ⟨kept, clean⟩ := accepts
    { analyzer with loops := .serial :: analyzer.loops }
  refine ⟨⟨kept.reports, ?_, kept.functionDepth, kept.parallelBoundaries⟩,
    fun none => ?_⟩
  · exact congrArg List.tail kept.loops
  · obtain ⟨rest, allowed⟩ := clean none
    refine ⟨rest, fun jump member => ?_⟩
    simp only [List.mem_filter, decide_eq_true_eq] at member
    obtain ⟨inside, rfl⟩ := member
    exact allowed .return inside

/-- An iteration takes `continue`, and nothing else reaches it. -/
theorem Accepts.inParallel (accepts : Accepts jumps tame analysis) :
    Accepts [] ((∀ jump ∈ jumps, jump = .continue) ∧ tame) fun analyzer =>
      analyzer.inParallel analysis := by
  intro analyzer
  obtain ⟨kept, clean⟩ := accepts { analyzer with
    loops := .parallel :: analyzer.loops
    parallelBoundaries := (analyzer.scopes.depth, analyzer.functionDepth) ::
      analyzer.parallelBoundaries }
  refine ⟨⟨kept.reports, ?_, kept.functionDepth, ?_⟩, fun none => ?_⟩
  · exact congrArg List.tail kept.loops
  · exact congrArg List.tail kept.parallelBoundaries
  · obtain ⟨rest, allowed⟩ := clean none
    refine ⟨⟨fun jump member => ?_, rest⟩, nofun⟩
    have taken := allowed jump member
    cases jump with
    | «break» =>
        obtain ⟨outer, same⟩ := taken
        cases same
    | «continue» => rfl
    | «return» =>
        have crosses := taken.2
        simp [crossesParallel] at crosses

theorem checkBreak_accepts (point : Point) :
    Accepts [.break] True fun analyzer => analyzer.checkBreak point := by
  intro analyzer
  dsimp only [checkBreak]
  split
  · next outer same =>
      refine ⟨.refl _, fun _ => ⟨trivial, fun jump member => ?_⟩⟩
      rw [List.mem_singleton] at member
      exact member ▸ ⟨outer, same⟩
  · exact ⟨extending.report _ _ _ _, fun none => by simp [report] at none⟩
  · exact ⟨extending.report _ _ _ _, fun none => by simp [report] at none⟩

theorem checkContinue_accepts (point : Point) :
    Accepts [.continue] True fun analyzer =>
      analyzer.checkContinue point := by
  intro analyzer
  dsimp only [checkContinue]
  split
  · next kind outer same =>
      refine ⟨.refl _, fun _ => ⟨trivial, fun jump member => ?_⟩⟩
      rw [List.mem_singleton] at member
      subst member
      simp [Allows, same]
  · exact ⟨extending.report _ _ _ _, fun none => by simp [report] at none⟩

theorem checkReturn_accepts (point : Point) :
    Accepts [.return] True fun analyzer => analyzer.checkReturn point := by
  intro analyzer
  dsimp only [checkReturn]
  split
  · exact ⟨extending.report _ _ _ _, fun none => by simp [report] at none⟩
  · next stays =>
      split
      · exact ⟨extending.report _ _ _ _, fun none => by simp [report] at none⟩
      · next deep =>
          refine ⟨.refl _, fun _ => ⟨trivial, fun jump member => ?_⟩⟩
          rw [List.mem_singleton] at member
          subst member
          exact ⟨deep, by simpa using stays⟩

theorem reached_accepts (mode : Mode) (point : Point) (node : Stmt)
    {walk : Point → Analyzer → Analyzer}
    (accepts : ∀ point, Accepts jumps tame (walk point)) :
    Accepts jumps tame (reached mode point node walk) := by
  have visits : ∀ (point : Point), Accepts jumps tame fun analyzer =>
      walk point (analyzer.visit point (.statement node)) :=
    fun point => (accepts point).after fun analyzer =>
      extending.visit analyzer point _
  cases mode with
  | listed => exact visits point
  | body =>
      exact ((visits (0 :: point)).inContext (statementLabel 0)).after
        fun analyzer => extending.hoist analyzer point 0 [node]

mutual

theorem statement_accepts (mode : Mode) (point : Point) :
    ∀ node : Stmt, Accepts node.jumps node.Tame (statement mode point node)
  | .located span inner => fun analyzer => by
      rw [statement]
      exact (statement_accepts mode point inner).located _ analyzer
  | .block list => fun analyzer => by
      have lists : ∀ point, Accepts (Stmt.jumpsOf list) (Stmt.TameAll list)
          fun analyzer => listed point 0 list (hoist point 0 list analyzer) :=
        fun point => (listed_accepts point 0 list).after fun analyzer =>
          extending.hoist analyzer point 0 list
      cases mode with
      | listed =>
          rw [statement]
          exact (((lists _).inScope _).inContext "block").after
            (fun analyzer => extending.visit analyzer point _) analyzer
      | body =>
          rw [statement]
          exact lists point analyzer
  | .type name fields => fun analyzer => by
      rw [statement]
      exact reached_accepts mode point _ (fun point => Quiet.accepts
        fun analyzer => extending.typeDeclaration analyzer point name fields)
        analyzer
  | .break => fun analyzer => by
      rw [statement]
      exact reached_accepts mode point _ checkBreak_accepts analyzer
  | .continue => fun analyzer => by
      rw [statement]
      exact reached_accepts mode point _ checkContinue_accepts analyzer
  | .let name annotated value => fun analyzer => by
      rw [statement]
      refine reached_accepts mode point _ (fun point => Quiet.accepts
        fun analyzer => ?_) analyzer
      exact (((extending.expression _ value _).trans
        (extending.resolveAnnotated _ point annotated)).trans
        (extending.checkExpected _ point value _
          fun _ _ found => annotationType_defined found)).trans
        (declare_extends _ point name _)
  | .expression value => fun analyzer => by
      rw [statement]
      exact reached_accepts mode point _ (fun point => Quiet.accepts
        (extending.expression (0 :: point) value)) analyzer
  | .function name parameters returnAnnotated body => fun analyzer => by
      rw [statement]
      refine reached_accepts mode point _ (fun point => ?_) analyzer
      exact (((((statement_accepts .body (0 :: point) body).after
        fun analyzer => extending.declareParameters analyzer point
          parameters).inFunction returnAnnotated).inScope point).inContext _)
  | .return value => fun analyzer => by
      rw [statement]
      refine reached_accepts mode point _ (fun point => ?_) analyzer
      have checks : Quiet fun analyzer =>
          (optional (0 :: point) value analyzer).checkExpected point
            (value.getD .null)
            (optional (0 :: point) value analyzer).returnType :=
        fun analyzer => (extending.optional _ value analyzer).trans
          (extending.checkExpected _ point _ _
            fun sound => sound.returnType)
      exact (checkReturn_accepts point).before checks
  | .if test thenBranch elseBranch => fun analyzer => by
      rw [statement]
      refine reached_accepts mode point _ (fun point => ?_) analyzer
      exact ((((statement_accepts .body (1 :: point) thenBranch).inScope
        (1 :: point)).inContext "if branch").then
        (otherwise_accepts point elseBranch)).after
        (extending.expression (0 :: point) test)
  | .while test body => fun analyzer => by
      rw [statement]
      refine reached_accepts mode point _ (fun point => ?_) analyzer
      exact ((((statement_accepts .body (1 :: point) body).inScope
        (1 :: point)).inContext "while body").inLoop).after
        (extending.expression (0 :: point) test)
  | .for variableName iterable body => fun analyzer => by
      rw [statement]
      refine reached_accepts mode point _ (fun point => ?_) analyzer
      exact (((((statement_accepts .body (1 :: point) body).after
        fun analyzer => declare_extends analyzer point variableName
          .loopVariable).inScope (1 :: point)).inLoop).inContext _).after
        (extending.expression (0 :: point) iterable)
  | .parallel variableName iterable body => fun analyzer => by
      rw [statement]
      refine reached_accepts mode point _ (fun point => ?_) analyzer
      exact (((((statement_accepts .body (1 :: point) body).after
        fun analyzer => declare_extends analyzer point variableName
          .loopVariable).inScope (1 :: point)).inParallel).inContext _).after
        (extending.expression (0 :: point) iterable)
  | .match value arms => fun analyzer => by
      rw [statement]
      refine reached_accepts mode point _ (fun point => ?_) analyzer
      exact (matchArms_accepts point 1 arms).after
        (extending.expression (0 :: point) value)

theorem listed_accepts (point : Point) (i : Nat) :
    ∀ list, Accepts (Stmt.jumpsOf list) (Stmt.TameAll list)
      (listed point i list)
  | [] => fun analyzer => by
      rw [listed]
      exact Quiet.accepts Extends.refl analyzer
  | node :: rest => fun analyzer => by
      rw [listed]
      exact (((statement_accepts .listed (i :: point) node).inContext
        (statementLabel i)).then (listed_accepts point (i + 1) rest)) analyzer

theorem otherwise_accepts (point : Point) :
    ∀ branch, Accepts (Stmt.optionalJumps branch) (Stmt.TameOptional branch)
      (otherwise point branch)
  | none => fun analyzer => by
      rw [otherwise]
      exact Quiet.accepts Extends.refl analyzer
  | some branch => fun analyzer => by
      rw [otherwise]
      exact (((statement_accepts .body (2 :: point) branch).inScope
        (2 :: point)).inContext "else branch") analyzer

theorem matchArms_accepts (point : Point) (i : Nat) :
    ∀ arms, Accepts (Stmt.armJumps arms) (Stmt.TameArms arms)
      (matchArms point i arms)
  | [] => fun analyzer => by
      rw [matchArms]
      exact Quiet.accepts Extends.refl analyzer
  | (_, body) :: rest => fun analyzer => by
      rw [matchArms]
      exact ((((statement_accepts .body (i :: point) body).inScope
        (i :: point)).inContext _).then
        (matchArms_accepts point (i + 1) rest)) analyzer

end

end Jumps

end Analyzer

/-- No jump leaves the statements of a program, nor reaches the body of a
function or of a parallel statement that does not take it. -/
def Program.Tame (program : Program) : Prop :=
  ∀ node ∈ program.statements, node.Tame ∧ node.jumps = []

open Analyzer in
/-- In an accepted program every jump is taken. -/
theorem analyze_tame {program : Program} (accepted : analyze program = []) :
    program.Tame := by
  have walks : Accepts (Stmt.jumpsOf program.statements)
      (Stmt.TameAll program.statements)
      (fun analyzer => analyzer.inScope []
        (Analyzer.statements [] program.statements)) :=
    Accepts.inScope ((listed_accepts [] 0 program.statements).after
      fun analyzer => extending.hoist analyzer [] 0 program.statements) []
  obtain ⟨tame, jumps⟩ := (walks (Analyzer.new (.new 0 program))).2
    (List.map_eq_nil_iff.mp accepted)
  intro node member
  refine ⟨Stmt.tameAll_iff.mp tame node member, ?_⟩
  refine List.eq_nil_iff_forall_not_mem.mpr fun jump inside => ?_
  have allowed := jumps jump (Stmt.mem_jumpsOf.mpr ⟨node, member, inside⟩)
  cases jump with
  | «break» =>
      obtain ⟨outer, same⟩ := allowed
      cases same
  | «continue» => exact allowed rfl
  | «return» => exact allowed.1 rfl

end NetLang
