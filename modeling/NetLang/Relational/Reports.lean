import NetLang.Relational.Walks

/-!
# The errors of a program and of its rewriting

The walk over statements.  Without locations the errors are the same up to
where they are; a program without annotations, or with serial loops for its
parallel statements, is accepted if the program itself is.
-/

namespace NetLang

variable {rewriting : Rewriting}

section Hoisting

theorem StaticRel.functionSymbol {static static' : Static}
    (related : StaticRel rewriting static static')
    (parameters : List Parameter) (returnAnnotated : Option TypeAnnotation) :
    (Analyzer.functionSymbol static parameters returnAnnotated).Rel rewriting
      (Analyzer.functionSymbol static' (parameters.map rewriting.parameter)
        (rewriting.optional returnAnnotated)) := by
  refine ⟨List.length_map _, ?_, related.annotationType returnAnnotated⟩
  rw [List.map_map, List.forall₂_map_left_iff, List.forall₂_map_right_iff,
    List.forall₂_same]
  intro parameter _
  exact related.annotationType parameter.annotated

variable {left right : Analyzer} (related : AnalyzerRel rewriting left right)
  (point : Point)

include related

theorem AnalyzerRel.resolveParameters (parameters : List Parameter) :
    AnalyzerRel rewriting (Analyzer.resolveParameters point parameters left)
      (Analyzer.resolveParameters point (parameters.map rewriting.parameter)
        right) := by
  induction parameters generalizing left right with
  | nil => exact related
  | cons parameter rest induction =>
      exact induction
        (related.resolveAnnotated point point parameter.annotated)

theorem AnalyzerRel.declareParameters (parameters : List Parameter) :
    AnalyzerRel rewriting (Analyzer.declareParameters point parameters left)
      (Analyzer.declareParameters point (parameters.map rewriting.parameter)
        right) := by
  induction parameters generalizing left right with
  | nil => exact related
  | cons parameter rest induction =>
      apply induction
      apply related.declare
      exact related.static.annotationType parameter.annotated

theorem AnalyzerRel.hoistStatement (node : Stmt) :
    AnalyzerRel rewriting (left.hoistStatement point node)
      (right.hoistStatement point (rewriting.stmt node)) := by
  unfold Analyzer.hoistStatement
  rw [rewriting.stmt_unspanned]
  cases shape : node.unspanned with
  | located span inner =>
      exact absurd shape (Stmt.unspanned_ne_located node span inner)
  | function name parameters returnAnnotated body =>
      rw [Rewriting.stmt]
      have resolved := (related.resolveParameters point parameters)
        |>.resolveAnnotated point point returnAnnotated
      exact resolved.declare point point name
        (resolved.static.functionSymbol parameters returnAnnotated)
  | parallel variableName iterable body =>
      by_cases serial : rewriting.parallel = true
      · rw [Rewriting.stmt, if_pos serial]
        exact related
      · rw [Rewriting.stmt, if_neg serial]
        exact related
  | _ =>
      rw [Rewriting.stmt]
      exact related

omit related in
theorem hoist_alike (i : Nat) (list : List Stmt) :
    AnalyzeAlike rewriting (Analyzer.hoist point i list)
      (Analyzer.hoist point i (rewriting.stmtList list)) := by
  intro left right related
  induction list generalizing i left right with
  | nil => exact related
  | cons node rest induction =>
      rw [Rewriting.stmtList]
      have hoists : AnalyzeAlike rewriting
          (fun analyzer => analyzer.hoistStatement (i :: point) node)
          (fun analyzer =>
            analyzer.hoistStatement (i :: point) (rewriting.stmt node)) :=
        fun _ _ befores => befores.hoistStatement (i :: point) node
      have labelled : AnalyzeAlike rewriting
          (fun analyzer => analyzer.inContext (Analyzer.statementLabel i)
            fun analyzer => analyzer.hoistStatement (i :: point) node)
          (fun analyzer => analyzer.inContext (Analyzer.statementLabel i)
            fun analyzer =>
              analyzer.hoistStatement (i :: point) (rewriting.stmt node)) :=
        fun _ _ befores => befores.inContext hoists fun _ => rfl
      exact induction (i + 1) (related.located labelled _ _)

end Hoisting

section Control

@[simp] theorem Rewriting.loop_serial (rewriting : Rewriting) :
    rewriting.loop .serial = .serial := by
  unfold Rewriting.loop
  split <;> rfl

variable {left right : Analyzer} (related : AnalyzerRel rewriting left right)
  {f g : Analyzer → Analyzer} (alike : AnalyzeAlike rewriting f g)
  (point : Point)

section Nested

include related alike

theorem AnalyzerRel.inFunction (returnAnnotated : Option TypeAnnotation) :
    AnalyzerRel rewriting (left.inFunction returnAnnotated f)
      (right.inFunction (rewriting.optional returnAnnotated) g) := by
  have static := related.static
  have after : AnalyzerRel rewriting
      (f { left with
        functionDepth := left.functionDepth + 1
        loops := []
        returnType :=
          Analyzer.annotationType left.toStatic returnAnnotated })
      (g { right with
        functionDepth := right.functionDepth + 1
        loops := []
        returnType := Analyzer.annotationType right.toStatic
          (rewriting.optional returnAnnotated) }) := by
    apply alike
    exact { related with
      static := { static with
        types := static.types
        scopes := static.scopes
        functionDepth := congrArg (· + 1) static.functionDepth
        loops := rfl
        returnType := static.annotationType returnAnnotated } }
  exact { after with
    static := { after.static with
      types := after.static.types
      scopes := after.static.scopes
      functionDepth := congrArg (· - 1) after.static.functionDepth
      loops := static.loops
      returnType := static.returnType } }

theorem AnalyzerRel.inLoop (kind : LoopKind) :
    AnalyzerRel rewriting (left.inLoop kind f)
      (right.inLoop (rewriting.loop kind) g) := by
  have static := related.static
  have after : AnalyzerRel rewriting
      (f { left with loops := kind :: left.loops })
      (g { right with loops := rewriting.loop kind :: right.loops }) := by
    apply alike
    exact { related with
      static := { static with
        types := static.types
        scopes := static.scopes
        loops := congrArg (rewriting.loop kind :: ·) static.loops } }
  exact { after with
    static := { after.static with
      types := after.static.types
      scopes := after.static.scopes
      loops := by
        rw [Analyzer.inLoop, Analyzer.inLoop, List.map_tail]
        exact congrArg List.tail after.static.loops } }

/-- A parallel body becomes that of a serial loop, or stays one. -/
theorem AnalyzerRel.inParallel :
    AnalyzerRel rewriting (left.inParallel f)
      (if rewriting.parallel then right.inLoop .serial g
        else right.inParallel g) := by
  cases serial : rewriting.parallel with
  | true =>
      have outside : AnalyzeAlike rewriting (fun analyzer => f { analyzer with
          parallelBoundaries := (analyzer.scopes.depth,
            analyzer.functionDepth) :: analyzer.parallelBoundaries }) g := by
        intro before before' befores
        apply alike
        exact { befores with
          static := { befores.static with
            types := befores.static.types
            scopes := befores.static.scopes
            boundaries := by
              rw [befores.static.boundaries, if_pos serial, if_pos serial] } }
      have after := related.inLoop outside .parallel
      have loop : rewriting.loop .parallel = .serial := if_pos serial
      rw [loop] at after
      rw [if_pos rfl]
      exact { after with
        static := { after.static with
          types := after.static.types
          scopes := after.static.scopes
          boundaries := by
            rw [after.static.boundaries, if_pos serial, if_pos serial] } }
  | false =>
      have parallel : ¬ rewriting.parallel = true := by simp [serial]
      have inside : AnalyzeAlike rewriting (fun analyzer => f { analyzer with
            parallelBoundaries := (analyzer.scopes.depth,
              analyzer.functionDepth) :: analyzer.parallelBoundaries })
          (fun analyzer => g { analyzer with
            parallelBoundaries := (analyzer.scopes.depth,
              analyzer.functionDepth) :: analyzer.parallelBoundaries }) := by
        intro before before' befores
        have depth : before'.scopes.depth = before.scopes.depth :=
          befores.static.scopes.length_eq.symm
        apply alike
        exact { befores with
          static := { befores.static with
            types := befores.static.types
            scopes := befores.static.scopes
            boundaries := by
              rw [befores.static.boundaries, if_neg parallel, if_neg parallel,
                depth, befores.static.functionDepth] } }
      have after := related.inLoop inside .parallel
      have loop : rewriting.loop .parallel = .parallel := if_neg parallel
      rw [loop] at after
      rw [if_neg (by simp)]
      exact { after with
        static := { after.static with
          types := after.static.types
          scopes := after.static.scopes
          boundaries := by
            have same := after.static.boundaries
            rw [if_neg parallel] at same ⊢
            exact congrArg List.tail same } }

end Nested

include related

theorem AnalyzerRel.checkBreak :
    AnalyzerRel rewriting (left.checkBreak point)
      (right.checkBreak point) := by
  unfold Analyzer.checkBreak
  rw [related.static.loops]
  cases left.loops with
  | nil => exact related.report point point _ _
  | cons kind outer =>
      rw [List.map_cons]
      cases serial : rewriting.parallel with
      | true =>
          have loop : rewriting.loop kind = .serial := if_pos serial
          rw [loop]
          cases kind with
          | serial => exact related
          | parallel =>
              exact related.report_left (lessens_of_serial serial) point _ _
      | false =>
          have loop : rewriting.loop kind = kind := by
            simp [Rewriting.loop, serial]
          rw [loop]
          cases kind with
          | serial => exact related
          | parallel => exact related.report point point _ _

theorem AnalyzerRel.checkContinue :
    AnalyzerRel rewriting (left.checkContinue point)
      (right.checkContinue point) := by
  unfold Analyzer.checkContinue
  rw [related.static.loops]
  cases left.loops with
  | nil => exact related.report point point _ _
  | cons kind outer => exact related

omit related in
theorem StaticRel.crossesParallel {static static' : Static}
    (related : StaticRel rewriting static static') :
    Analyzer.crossesParallel static' =
      if rewriting.parallel then false
      else Analyzer.crossesParallel static := by
  unfold Analyzer.crossesParallel
  rw [related.boundaries, related.functionDepth]
  cases rewriting.parallel <;> rfl

theorem AnalyzerRel.checkReturn :
    AnalyzerRel rewriting (left.checkReturn point)
      (right.checkReturn point) := by
  unfold Analyzer.checkReturn
  rw [related.static.crossesParallel, related.static.functionDepth]
  cases serial : rewriting.parallel with
  | false =>
      rw [if_neg Bool.false_ne_true]
      split
      · exact related.report point point _ _
      · exact related.report_if point _ _ _
  | true =>
      rw [if_pos rfl, if_neg Bool.false_ne_true]
      split
      · split
        · exact related.report_both (lessens_of_serial serial) point _ _ _ _
        · exact related.report_left (lessens_of_serial serial) point _ _
      · exact related.report_if point _ _ _

end Control

section Statements

section Alike

variable {f g : Analyzer → Analyzer} (alike : AnalyzeAlike rewriting f g)

include alike

theorem AnalyzeAlike.inScope (point : Point) :
    AnalyzeAlike rewriting (fun analyzer => analyzer.inScope point f)
      (fun analyzer => analyzer.inScope point g) :=
  fun _ _ related => related.inScope alike point

theorem AnalyzeAlike.inContext (label : String) :
    AnalyzeAlike rewriting (fun analyzer => analyzer.inContext label f)
      (fun analyzer => analyzer.inContext label g) :=
  fun _ _ related => related.inContext alike fun _ => rfl

end Alike

theorem reached_alike (mode : Analyzer.Mode) (point : Point)
    {node node' : Stmt} (same : rewriting.stmt node = node')
    {f g : Point → Analyzer → Analyzer}
    (alike : ∀ point, AnalyzeAlike rewriting (f point) (g point)) :
    AnalyzeAlike rewriting (Analyzer.reached mode point node f)
      (Analyzer.reached mode point node' g) := by
  subst same
  intro left right related
  cases mode with
  | listed => exact alike point (related.visit point point _ _)
  | body =>
      have visited : AnalyzeAlike rewriting
          (fun analyzer => f (0 :: point)
            (analyzer.visit (0 :: point) (.statement node)))
          (fun analyzer => g (0 :: point)
            (analyzer.visit (0 :: point)
              (.statement (rewriting.stmt node)))) :=
        fun _ _ befores => alike (0 :: point) (befores.visit _ _ _ _)
      have hoisted := hoist_alike point 0 [node] related
      rw [Rewriting.stmtList, Rewriting.stmtList] at hoisted
      exact visited.inContext _ hoisted

theorem loopBody_alike {f g : Analyzer → Analyzer}
    (alike : AnalyzeAlike rewriting f g) (point : Point)
    (variableName : String) :
    AnalyzeAlike rewriting
      (fun analyzer => analyzer.inScope point fun analyzer =>
        f (analyzer.declare point variableName .loopVariable))
      (fun analyzer => analyzer.inScope point fun analyzer =>
        g (analyzer.declare point variableName .loopVariable)) := by
  apply AnalyzeAlike.inScope
  intro left right related
  exact alike (related.declare point point variableName trivial)

mutual

/-- The walk over a statement and over its rewriting. -/
theorem statement_alike (mode : Analyzer.Mode) (point : Point) :
    ∀ node : Stmt, AnalyzeAlike rewriting (Analyzer.statement mode point node)
      (Analyzer.statement mode point (rewriting.stmt node))
  | .located span inner => by
      intro left right related
      rw [Rewriting.stmt, Analyzer.statement]
      split
      · exact related.located_left (statement_alike mode point inner) _
      · rw [Analyzer.statement]
        exact related.located (statement_alike mode point inner) _ _
  | .block list => by
      intro left right related
      rw [Rewriting.stmt]
      have lists : ∀ point, AnalyzeAlike rewriting
          (fun analyzer => Analyzer.listed point 0 list
            (Analyzer.hoist point 0 list analyzer))
          (fun analyzer => Analyzer.listed point 0 (rewriting.stmtList list)
            (Analyzer.hoist point 0 (rewriting.stmtList list) analyzer)) :=
        fun point _ _ befores => listed_alike point 0 list
          (hoist_alike point 0 list befores)
      cases mode with
      | listed =>
          rw [Analyzer.statement, Analyzer.statement]
          exact ((lists _).inScope _).inContext "block"
            (related.visit point point _ _)
      | body =>
          rw [Analyzer.statement, Analyzer.statement]
          exact lists point related
  | .type name fields => by
      intro left right related
      rw [Rewriting.stmt, Analyzer.statement, Analyzer.statement]
      apply reached_alike mode point (by rw [Rewriting.stmt]) _ related
      intro point before before' befores
      exact befores.typeDeclaration point name fields
  | .break => by
      intro left right related
      rw [Rewriting.stmt, Analyzer.statement, Analyzer.statement]
      apply reached_alike mode point (by rw [Rewriting.stmt]) _ related
      intro point before before' befores
      exact befores.checkBreak point
  | .continue => by
      intro left right related
      rw [Rewriting.stmt, Analyzer.statement, Analyzer.statement]
      apply reached_alike mode point (by rw [Rewriting.stmt]) _ related
      intro point before before' befores
      exact befores.checkContinue point
  | .let name annotated value => by
      intro left right related
      rw [Rewriting.stmt, Analyzer.statement, Analyzer.statement]
      apply reached_alike mode point (by rw [Rewriting.stmt]) _ related
      intro point before before' befores
      have resolved := (expression_alike (0 :: point) value befores)
        |>.resolveAnnotated point point annotated
      have annotations := resolved.static.annotationType annotated
      exact (resolved.checkExpected point value annotations).declare point
        point name annotations
  | .expression value => by
      intro left right related
      rw [Rewriting.stmt, Analyzer.statement, Analyzer.statement]
      apply reached_alike mode point (by rw [Rewriting.stmt]) _ related
      intro point
      exact expression_alike (0 :: point) value
  | .function name parameters returnAnnotated body => by
      intro left right related
      rw [Rewriting.stmt, Analyzer.statement, Analyzer.statement]
      apply reached_alike mode point (by rw [Rewriting.stmt]) _ related
      intro point
      have bodies : AnalyzeAlike rewriting
          (fun analyzer => Analyzer.statement .body (0 :: point) body
            (Analyzer.declareParameters point parameters analyzer))
          (fun analyzer => Analyzer.statement .body (0 :: point)
            (rewriting.stmt body) (Analyzer.declareParameters point
              (parameters.map rewriting.parameter) analyzer)) :=
        fun _ _ befores => statement_alike .body (0 :: point) body
          (befores.declareParameters point parameters)
      have functions : AnalyzeAlike rewriting
          (fun analyzer => analyzer.inFunction returnAnnotated fun analyzer =>
            Analyzer.statement .body (0 :: point) body
              (Analyzer.declareParameters point parameters analyzer))
          (fun analyzer => analyzer.inFunction
            (rewriting.optional returnAnnotated) fun analyzer =>
              Analyzer.statement .body (0 :: point) (rewriting.stmt body)
                (Analyzer.declareParameters point
                  (parameters.map rewriting.parameter) analyzer)) :=
        fun _ _ befores => befores.inFunction bodies returnAnnotated
      exact (functions.inScope point).inContext _
  | .return value => by
      intro left right related
      rw [Rewriting.stmt, Analyzer.statement, Analyzer.statement]
      apply reached_alike mode point (by rw [Rewriting.stmt]) _ related
      intro point before before' befores
      have returned := optional_alike (0 :: point) value
        (befores.checkReturn point)
      have same : (rewriting.exprOption value).getD .null =
          rewriting.expr (value.getD .null) := by
        cases value <;> rfl
      dsimp only
      rw [same]
      exact returned.checkExpected point (value.getD .null)
        returned.static.returnType
  | .if test thenBranch elseBranch => by
      intro left right related
      rw [Rewriting.stmt, Analyzer.statement, Analyzer.statement]
      apply reached_alike mode point (by rw [Rewriting.stmt]) _ related
      intro point before before' befores
      have bodies : AnalyzeAlike rewriting _ _ :=
        statement_alike .body (1 :: point) thenBranch
      have branch := (bodies.inScope (1 :: point)).inContext "if branch"
      exact otherwise_alike point elseBranch
        (branch (expression_alike (0 :: point) test befores))
  | .while test body => by
      intro left right related
      rw [Rewriting.stmt, Analyzer.statement, Analyzer.statement]
      apply reached_alike mode point (by rw [Rewriting.stmt]) _ related
      intro point before before' befores
      have bodies : AnalyzeAlike rewriting _ _ :=
        statement_alike .body (1 :: point) body
      have looped := (expression_alike (0 :: point) test befores).inLoop
        ((bodies.inScope (1 :: point)).inContext "while body") .serial
      rwa [rewriting.loop_serial] at looped
  | .for variableName iterable body => by
      intro left right related
      rw [Rewriting.stmt, Analyzer.statement, Analyzer.statement]
      apply reached_alike mode point (by rw [Rewriting.stmt]) _ related
      intro point before before' befores
      have bodies : AnalyzeAlike rewriting _ _ := loopBody_alike
        (statement_alike .body (1 :: point) body) (1 :: point) variableName
      apply AnalyzerRel.inContext _
        (expression_alike (0 :: point) iterable befores) fun _ => rfl
      intro inner inner' inners
      have looped := inners.inLoop bodies .serial
      rwa [rewriting.loop_serial] at looped
  | .parallel variableName iterable body => by
      intro left right related
      cases serial : rewriting.parallel with
      | true =>
          rw [Rewriting.stmt, if_pos serial, Analyzer.statement,
            Analyzer.statement]
          apply reached_alike mode point
            (by rw [Rewriting.stmt, if_pos serial]) _ related
          intro point before before' befores
          have bodies : AnalyzeAlike rewriting _ _ := loopBody_alike
            (statement_alike .body (1 :: point) body) (1 :: point)
            variableName
          apply AnalyzerRel.inContext _
            (expression_alike (0 :: point) iterable befores)
          · intro lenient
            rw [lessens_of_serial serial] at lenient
            cases lenient
          · intro inner inner' inners
            have looped := inners.inParallel bodies
            rwa [if_pos serial] at looped
      | false =>
          have parallel : ¬ rewriting.parallel = true := by simp [serial]
          rw [Rewriting.stmt, if_neg parallel, Analyzer.statement,
            Analyzer.statement]
          apply reached_alike mode point
            (by rw [Rewriting.stmt, if_neg parallel]) _ related
          intro point before before' befores
          have bodies : AnalyzeAlike rewriting _ _ := loopBody_alike
            (statement_alike .body (1 :: point) body) (1 :: point)
            variableName
          apply AnalyzerRel.inContext _
            (expression_alike (0 :: point) iterable befores) fun _ => rfl
          intro inner inner' inners
          have looped := inners.inParallel bodies
          rwa [if_neg parallel] at looped
  | .match value arms => by
      intro left right related
      rw [Rewriting.stmt, Analyzer.statement, Analyzer.statement]
      apply reached_alike mode point (by rw [Rewriting.stmt]) _ related
      intro point before before' befores
      exact matchArms_alike point 1 arms
        (expression_alike (0 :: point) value befores)

theorem listed_alike (point : Point) (i : Nat) : ∀ list : List Stmt,
    AnalyzeAlike rewriting (Analyzer.listed point i list)
      (Analyzer.listed point i (rewriting.stmtList list))
  | [] => by
      intro left right related
      rw [Rewriting.stmtList, Analyzer.listed, Analyzer.listed]
      exact related
  | node :: rest => by
      intro left right related
      rw [Rewriting.stmtList, Analyzer.listed, Analyzer.listed]
      exact listed_alike point (i + 1) rest
        ((statement_alike .listed (i :: point) node).inContext _ related)

theorem otherwise_alike (point : Point) : ∀ branch : Option Stmt,
    AnalyzeAlike rewriting (Analyzer.otherwise point branch)
      (Analyzer.otherwise point (rewriting.stmtOption branch))
  | none => by
      intro left right related
      rw [Rewriting.stmtOption, Analyzer.otherwise, Analyzer.otherwise]
      exact related
  | some branch => by
      intro left right related
      rw [Rewriting.stmtOption, Analyzer.otherwise, Analyzer.otherwise]
      exact ((statement_alike .body (2 :: point) branch).inScope _).inContext
        _ related

theorem matchArms_alike (point : Point) (i : Nat) :
    ∀ arms : List (Pattern × Stmt),
    AnalyzeAlike rewriting (Analyzer.matchArms point i arms)
      (Analyzer.matchArms point i (rewriting.armList arms))
  | [] => by
      intro left right related
      rw [Rewriting.armList, Analyzer.matchArms, Analyzer.matchArms]
      exact related
  | (_, body) :: rest => by
      intro left right related
      rw [Rewriting.armList, Analyzer.matchArms, Analyzer.matchArms]
      have bodies : AnalyzeAlike rewriting _ _ :=
        statement_alike .body (i :: point) body
      have arm := (bodies.inScope (i :: point)).inContext s!"match arm {i}"
      exact matchArms_alike point (i + 1) rest (arm related)

end

end Statements

section Programs

variable (rewriting) (program : Program)

theorem analysis_related : AnalyzerRel rewriting (analysis 0 program)
    (analysis 0 (rewriting.program program)) := by
  have symbols : Scopes.Rel rewriting Scopes.new Scopes.new :=
    .cons (List.forall₂_same.mpr fun _ _ => ⟨rfl, Symbol.rel_refl _⟩) .nil
  have started : AnalyzerRel rewriting
      (.new (TypeRegistry.new 0 program))
      (.new (TypeRegistry.new 0 (rewriting.program program))) :=
    { static := {
        types := typesAgree_new program rfl
        returnType := .inl rfl
        loops := rfl
        scopes := symbols
        functionDepth := rfl
        boundaries := by
          unfold Analyzer.new
          split <;> rfl }
      declaredTypes := rfl
      context := fun _ => rfl
      reports := by
        unfold ReportsRel
        split
        · exact fun nothing => nothing
        · rfl }
  have walked : AnalyzeAlike rewriting
      (Analyzer.statements [] program.statements)
      (Analyzer.statements [] (rewriting.stmtList program.statements)) :=
    fun _ _ related => listed_alike [] 0 program.statements
      (hoist_alike [] 0 program.statements related)
  exact started.inScope walked []

/-- Nothing new is wrong with a program that has fewer annotations or fewer
parallel statements. -/
theorem analyze_rewriting (accepted : analyze program = []) :
    analyze (rewriting.program program) = [] := by
  have related := (analysis_related rewriting program).reports
  unfold analyze Analyzer.errors at accepted ⊢
  rw [List.map_eq_nil_iff] at accepted ⊢
  unfold ReportsRel at related
  split at related
  · exact related accepted
  · rw [accepted] at related
    simpa using related

/-- Without locations the errors are the same up to where they are. -/
theorem analyze_strip :
    (analyze program.strip).map SemanticError.unlocated =
      (analyze program).map SemanticError.unlocated := by
  have related := (analysis_related ⟨true, false, false⟩ program).reports
  simp only [ReportsRel, Rewriting.lessens, Bool.or_false, if_false,
    Bool.false_eq_true] at related
  unfold analyze Analyzer.errors
  rw [List.map_map, List.map_map]
  exact related

end Programs

end NetLang
