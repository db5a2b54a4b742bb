import NetLang.Semantic.Walk

/-!
# What an analysis collects

The walk over a program only adds to the visits and the reports, and the
analysis of an expression leaves where it stands.  A survey is what the whole
walk has collected; it covers the analysis of each part of the program.
-/

namespace NetLang

namespace Analyzer

/-- The second analyzer has collected what the first one has. -/
structure Gathers (before after : Analyzer) : Prop where
  reports : before.reports ⊆ after.reports
  visits : before.visits ⊆ after.visits

theorem Gathers.refl (analyzer : Analyzer) : analyzer.Gathers analyzer :=
  ⟨List.Subset.refl _, List.Subset.refl _⟩

theorem Gathers.trans {first second third : Analyzer}
    (before : first.Gathers second) (after : second.Gathers third) :
    first.Gathers third :=
  ⟨List.Subset.trans before.reports after.reports,
    List.Subset.trans before.visits after.visits⟩

/-- The second analyzer also stands where the first one does. -/
structure Still (before after : Analyzer) : Prop where
  gathers : before.Gathers after
  static : after.toStatic = before.toStatic

theorem Still.refl (analyzer : Analyzer) : analyzer.Still analyzer :=
  ⟨.refl _, rfl⟩

theorem Still.trans {first second third : Analyzer}
    (before : first.Still second) (after : second.Still third) :
    first.Still third :=
  ⟨before.gathers.trans after.gathers, after.static.trans before.static⟩

section Checks

variable (analyzer : Analyzer) (point : Point)

theorem report_still (kind : SemanticErrorKind) (message : String) :
    analyzer.Still (analyzer.report point kind message) :=
  ⟨⟨List.subset_append_left _ _, List.Subset.refl _⟩, rfl⟩

theorem visit_still (node : Node) :
    analyzer.Still (analyzer.visit point node) :=
  ⟨⟨List.Subset.refl _, List.subset_append_left _ _⟩, rfl⟩

theorem reading_still {α : Type} (read : Read α) :
    analyzer.Still (analyzer.reading read) :=
  ⟨⟨List.Subset.refl _, List.Subset.refl _⟩, rfl⟩

variable {analyzer} in
theorem located_still {span : Option Span} {analysis : Analyzer → Analyzer}
    (still : ∀ analyzer : Analyzer, analyzer.Still (analysis analyzer)) :
    analyzer.Still (analyzer.located span analysis) := by
  have inner := still { analyzer with
    currentSpan := span.or analyzer.currentSpan }
  exact ⟨⟨inner.gathers.reports, inner.gathers.visits⟩, inner.static⟩

end Checks

/-- The analysis of an expression leaves where it stands. -/
theorem standing : Follows Still where
  refl := .refl
  trans := .trans
  report := report_still
  visit := visit_still
  declareType _ _ := ⟨⟨List.Subset.refl _, List.Subset.refl _⟩, rfl⟩
  reading analyzer read _ := reading_still analyzer read
  located _ still _ := located_still still

/-- Whatever type is expected, a check leaves the analyzer where it is. -/
theorem checkExpected_still (analyzer : Analyzer) (point : Point)
    (node : Expr) (expected : Option ResolvedType) :
    analyzer.Still (analyzer.checkExpected point node expected) := by
  unfold checkExpected
  split
  · unfold checkType
    extract_lets known asked
    have first := reading_still analyzer known
    split
    · exact first
    · next name named _ _ _ =>
        refine (first.trans (reading_still asked name)).trans ?_
        split
        · exact located_still fun analyzer => report_still analyzer _ _ _
        · exact .refl _
  · exact .refl _

theorem checkArguments_still (point : Point) (arguments : List Expr)
    (parameters : List (Option ResolvedType)) (analyzer : Analyzer) :
    analyzer.Still (checkArguments point arguments parameters analyzer) := by
  induction arguments generalizing parameters analyzer with
  | nil =>
      rw [checkArguments]
      · exact .refl _
      · nofun
  | cons argument rest induction =>
      cases parameters with
      | nil =>
          rw [checkArguments]
          · exact .refl _
          · nofun
      | cons expected parameters =>
          rw [checkArguments]
          exact (checkExpected_still _ _ _ _).trans (induction _ _)

end Analyzer

namespace Static

/-- Where the analysis stands after a declaration; the first one is kept. -/
def declared (static : Static) (name : String) (symbol : Symbol) : Static :=
  match static.scopes.declare name symbol with
  | some scopes => { static with scopes := scopes }
  | none => static

/-- The functions of a list are declared before its statements. -/
def hoisted (static : Static) : List Stmt → Static
  | [] => static
  | node :: rest =>
      match node.unspanned with
      | .function name parameters returnAnnotated _ =>
          (static.declared name (Analyzer.functionSymbol static parameters
            returnAnnotated)).hoisted rest
      | _ => static.hoisted rest

def parameterized (static : Static) : List Parameter → Static
  | [] => static
  | parameter :: rest => (static.declared parameter.name (.parameter
      (Analyzer.annotationType static parameter.annotated))).parameterized rest

/-- A `let` declares its variable for the statements after it. -/
def passed (static : Static) (node : Stmt) : Static :=
  match node.unspanned with
  | .let name annotated _ => static.declared name
      (.variable (Analyzer.annotationType static annotated))
  | _ => static

/-- The two differ in the innermost scope at most. -/
structure Beside (before after : Static) : Prop where
  same : after = { before with scopes := after.scopes }
  outer : after.scopes.tail = before.scopes.tail
  length : after.scopes.length = before.scopes.length

theorem Beside.refl (static : Static) : static.Beside static :=
  ⟨rfl, rfl, rfl⟩

theorem Beside.trans {first second third : Static}
    (before : first.Beside second) (after : second.Beside third) :
    first.Beside third := by
  obtain ⟨same, outer, length⟩ := before
  obtain ⟨same', outer', length'⟩ := after
  refine ⟨?_, outer'.trans outer, length'.trans length⟩
  rw [same', same]

theorem declared_beside (static : Static) (name : String) (symbol : Symbol) :
    static.Beside (static.declared name symbol) := by
  cases scopes : static.scopes with
  | nil =>
      have kept : static.scopes.declare name symbol = none := by
        simp [scopes, Scopes.declare]
      simp [declared, kept, Beside.refl]
  | cons scope outer =>
      cases found : NameMap.get? scope.symbols name with
      | none =>
          have added : static.scopes.declare name symbol = some
              (⟨scope.origin, NameMap.insert scope.symbols name symbol⟩ ::
                outer) := by
            simp [scopes, Scopes.declare, found]
          simp only [declared, added]
          exact ⟨rfl, by simp [scopes], by simp [scopes]⟩
      | some other =>
          have kept : static.scopes.declare name symbol = none := by
            simp [scopes, Scopes.declare, found]
          simp [declared, kept, Beside.refl]

theorem hoisted_beside (static : Static) (list : List Stmt) :
    static.Beside (static.hoisted list) := by
  induction list generalizing static with
  | nil => exact .refl _
  | cons node rest induction =>
      unfold hoisted
      split
      · exact (declared_beside _ _ _).trans (induction _)
      · exact induction _

theorem passed_beside (static : Static) (node : Stmt) :
    static.Beside (static.passed node) := by
  unfold passed
  split
  · exact declared_beside _ _ _
  · exact .refl _

end Static

namespace Analyzer

/-- The second analyzer stands in the same scopes, up to declarations in the
innermost one. -/
structure Moves (before after : Analyzer) : Prop where
  gathers : before.Gathers after
  beside : before.toStatic.Beside after.toStatic

theorem Still.moves {before after : Analyzer} (still : before.Still after) :
    before.Moves after :=
  ⟨still.gathers, still.static ▸ .refl _⟩

theorem Moves.refl (analyzer : Analyzer) : analyzer.Moves analyzer :=
  ⟨.refl _, .refl _⟩

theorem Moves.trans {first second third : Analyzer}
    (before : first.Moves second) (after : second.Moves third) :
    first.Moves third :=
  ⟨before.gathers.trans after.gathers, before.beside.trans after.beside⟩

section Declarations

variable (analyzer : Analyzer) (point : Point)

theorem declare_static (name : String) (symbol : Symbol) :
    (analyzer.declare point name symbol).toStatic =
      analyzer.toStatic.declared name symbol := by
  cases found : analyzer.scopes.declare name symbol <;>
    simp [declare, Static.declared, found, report]

theorem declare_moves (name : String) (symbol : Symbol) :
    analyzer.Moves (analyzer.declare point name symbol) := by
  refine ⟨?_, ?_⟩
  · unfold declare
    split
    · exact ⟨List.Subset.refl _, List.Subset.refl _⟩
    · exact (report_still _ _ _ _).gathers
  · rw [declare_static]
    exact Static.declared_beside _ _ _

theorem located_moves {span : Option Span} {analysis : Analyzer → Analyzer}
    (moves : ∀ analyzer : Analyzer, analyzer.Moves (analysis analyzer)) :
    analyzer.Moves (analyzer.located span analysis) := by
  have inner := moves { analyzer with
    currentSpan := span.or analyzer.currentSpan }
  exact ⟨⟨inner.gathers.reports, inner.gathers.visits⟩, inner.beside⟩

theorem inContext_moves {label : String} {analysis : Analyzer → Analyzer}
    (moves : ∀ analyzer : Analyzer, analyzer.Moves (analysis analyzer)) :
    analyzer.Moves (analyzer.inContext label analysis) := by
  have inner := moves { analyzer with
    context := analyzer.context ++ [label] }
  exact ⟨⟨inner.gathers.reports, inner.gathers.visits⟩, inner.beside⟩

/-- A scope that is left leaves no trace. -/
theorem inScope_still {analysis : Analyzer → Analyzer}
    (moves : ∀ analyzer : Analyzer, analyzer.Moves (analysis analyzer)) :
    analyzer.Still (analyzer.inScope point analysis) := by
  have inner := moves { analyzer with
    scopes := ⟨point, []⟩ :: analyzer.scopes }
  refine ⟨⟨inner.gathers.reports, inner.gathers.visits⟩, ?_⟩
  have same := inner.beside.same
  have outer := inner.beside.outer
  simp only [inScope, List.tail_cons] at outer ⊢
  rw [same]
  simp only [outer]

theorem inFunction_moves {returnAnnotated : Option TypeAnnotation}
    {analysis : Analyzer → Analyzer}
    (moves : ∀ analyzer : Analyzer, analyzer.Moves (analysis analyzer)) :
    analyzer.Moves (analyzer.inFunction returnAnnotated analysis) := by
  have inner := moves { analyzer with
    functionDepth := analyzer.functionDepth + 1
    loops := []
    returnType := annotationType analyzer.toStatic returnAnnotated }
  refine ⟨⟨inner.gathers.reports, inner.gathers.visits⟩, ?_⟩
  obtain ⟨same, outer, length⟩ := inner.beside
  refine ⟨?_, outer, length⟩
  simp only [inFunction]
  rw [same]
  simp

theorem declareParameters_moves (parameters : List Parameter) :
    analyzer.Moves (declareParameters point parameters analyzer) := by
  induction parameters generalizing analyzer with
  | nil => exact .refl _
  | cons parameter rest induction =>
      exact (declare_moves _ _ _ _).trans (induction _)

theorem declareParameters_static (parameters : List Parameter) :
    (declareParameters point parameters analyzer).toStatic =
      analyzer.toStatic.parameterized parameters := by
  induction parameters generalizing analyzer with
  | nil => rfl
  | cons parameter rest induction =>
      rw [declareParameters, induction, declare_static]
      rfl

theorem hoistStatement_moves (node : Stmt) :
    analyzer.Moves (analyzer.hoistStatement point node) := by
  unfold hoistStatement
  split
  · exact ((standing.resolveParameters analyzer point _).trans
      (standing.resolveAnnotated _ point _)).moves.trans (declare_moves _ _ _ _)
  · exact .refl _

theorem hoistStatement_static (node : Stmt) :
    (analyzer.hoistStatement point node).toStatic =
      analyzer.toStatic.hoisted [node] := by
  cases shape : node.unspanned with
  | function name parameters returnAnnotated body =>
      have still := (standing.resolveParameters analyzer point parameters).trans
        (standing.resolveAnnotated _ point returnAnnotated)
      simp only [hoistStatement, Static.hoisted, shape]
      rw [declare_static, still.static]
  | _ => simp [hoistStatement, Static.hoisted, shape]

theorem hoist_moves (i : Nat) (list : List Stmt) :
    analyzer.Moves (hoist point i list analyzer) := by
  induction list generalizing i analyzer with
  | nil => exact .refl _
  | cons node rest induction =>
      refine (located_moves analyzer fun analyzer => ?_).trans (induction _ _)
      exact inContext_moves _ fun analyzer =>
        hoistStatement_moves analyzer _ node

theorem hoisted_cons (static : Static) (node : Stmt) (rest : List Stmt) :
    static.hoisted (node :: rest) = (static.hoisted [node]).hoisted rest := by
  simp only [Static.hoisted]
  split <;> rfl

theorem hoist_static (i : Nat) (list : List Stmt) :
    (hoist point i list analyzer).toStatic =
      analyzer.toStatic.hoisted list := by
  induction list generalizing i analyzer with
  | nil => rfl
  | cons node rest induction =>
      rw [hoist, induction, hoisted_cons]
      congr 1
      exact hoistStatement_static _ _ node

end Declarations

section Statements

variable {analyzer : Analyzer}

theorem inContext_still {label : String} {analysis : Analyzer → Analyzer}
    (still : ∀ analyzer : Analyzer, analyzer.Still (analysis analyzer)) :
    analyzer.Still (analyzer.inContext label analysis) := by
  have inner := still { analyzer with
    context := analyzer.context ++ [label] }
  exact ⟨⟨inner.gathers.reports, inner.gathers.visits⟩, inner.static⟩

theorem inLoop_still {kind : LoopKind} {analysis : Analyzer → Analyzer}
    (still : ∀ analyzer : Analyzer, analyzer.Still (analysis analyzer)) :
    analyzer.Still (analyzer.inLoop kind analysis) := by
  have inner := still { analyzer with loops := kind :: analyzer.loops }
  refine ⟨⟨inner.gathers.reports, inner.gathers.visits⟩, ?_⟩
  have static := inner.static
  simp only [inLoop]
  rw [static]
  simp

theorem inParallel_still {analysis : Analyzer → Analyzer}
    (still : ∀ analyzer : Analyzer, analyzer.Still (analysis analyzer)) :
    analyzer.Still (analyzer.inParallel analysis) := by
  have inner := still { analyzer with
    loops := .parallel :: analyzer.loops
    parallelBoundaries := (analyzer.scopes.depth, analyzer.functionDepth) ::
      analyzer.parallelBoundaries }
  refine ⟨⟨inner.gathers.reports, inner.gathers.visits⟩, ?_⟩
  have static := inner.static
  simp only [inParallel, inLoop]
  rw [static]
  simp

/-- What the analysis of a statement does to where it stands. -/
structure Walks (mode : Mode) (node : Stmt) (before after : Analyzer) :
    Prop where
  moves : before.Moves after
  listed : mode = .listed → after.toStatic = before.toStatic.passed node

theorem reached_walks {mode : Mode} {point : Point} {node : Stmt}
    {analysis : Point → Analyzer → Analyzer}
    (walks : ∀ point (analyzer : Analyzer),
      Walks .listed node analyzer (analysis point analyzer)) :
    Walks mode node analyzer (reached mode point node analysis analyzer) := by
  cases mode with
  | listed =>
      have entered := visit_still analyzer point (.statement node)
      have walked := walks point (analyzer.visit point (.statement node))
      refine ⟨entered.moves.trans walked.moves, fun _ => ?_⟩
      have static := walked.listed rfl
      rw [entered.static] at static
      exact static
  | body =>
      refine ⟨?_, fun body => nomatch body⟩
      simp only [reached]
      refine (hoist_moves analyzer point 0 [node]).trans ?_
      exact inContext_moves _ fun analyzer =>
        (visit_still _ _ _).moves.trans (walks _ _).moves

/-- Only a `let` declares a name after the functions are hoisted. -/
theorem still_walks {mode : Mode} {point : Point} {node : Stmt}
    {analysis : Point → Analyzer → Analyzer}
    (passes : ∀ static : Static, static.passed node = static)
    (still : ∀ point (analyzer : Analyzer),
      analyzer.Still (analysis point analyzer)) :
    Walks mode node analyzer (reached mode point node analysis analyzer) := by
  refine reached_walks fun point analyzer => ⟨(still _ _).moves, fun _ => ?_⟩
  rw [passes]
  exact (still point analyzer).static

theorem passed_let (static : Static) (name : String)
    (annotated : Option TypeAnnotation) (value : Expr) :
    static.passed (.let name annotated value) = static.declared name
      (.variable (annotationType static annotated)) := by
  simp [Static.passed, Stmt.unspanned]

mutual

theorem statement_walks (mode : Mode) (point : Point) :
    ∀ (node : Stmt) (analyzer : Analyzer),
      Walks mode node analyzer (statement mode point node analyzer)
  | .located span inner => fun analyzer => by
      rw [statement]
      have walked := statement_walks mode point inner { analyzer with
        currentSpan := (some span).or analyzer.currentSpan }
      refine ⟨located_moves analyzer fun analyzer =>
        (statement_walks mode point inner analyzer).moves, fun listed => ?_⟩
      have static := walked.listed listed
      have same : analyzer.toStatic.passed (.located span inner) =
          analyzer.toStatic.passed inner := by
        simp [Static.passed, Stmt.unspanned]
      rw [same]
      exact static
  | .block list => fun analyzer => by
      have inside : ∀ point, ∀ analyzer : Analyzer, analyzer.Moves
          (NetLang.Analyzer.listed point 0 list
            (hoist point 0 list analyzer)) :=
        fun point analyzer => (hoist_moves analyzer point 0 list).trans
          (listed_moves point 0 list _)
      cases mode with
      | listed =>
          have still : analyzer.Still ((analyzer.visit point
              (.statement (.block list))).inContext "block" fun analyzer =>
                analyzer.inScope (1 :: point) fun analyzer =>
                  NetLang.Analyzer.listed (1 :: point) 0 list
                    (hoist (1 :: point) 0 list analyzer)) :=
            (visit_still _ _ _).trans (inContext_still fun analyzer =>
              inScope_still analyzer _ (inside _))
          refine ⟨by rw [statement]; exact still.moves, fun _ => ?_⟩
          have passes : analyzer.toStatic.passed (.block list) =
              analyzer.toStatic := by
            simp [Static.passed, Stmt.unspanned]
          rw [passes, statement]
          exact still.static
      | body =>
          rw [statement]
          exact ⟨inside point analyzer, fun body => nomatch body⟩
  | .type name fields => fun analyzer => by
      rw [statement]
      exact still_walks (fun _ => rfl) fun point analyzer =>
        standing.typeDeclaration analyzer point name fields
  | .break => fun analyzer => by
      rw [statement]
      exact still_walks (fun _ => rfl) fun point analyzer =>
        standing.checkBreak analyzer point
  | .continue => fun analyzer => by
      rw [statement]
      exact still_walks (fun _ => rfl) fun point analyzer =>
        standing.checkContinue analyzer point
  | .let name annotated value => fun analyzer => by
      rw [statement]
      refine reached_walks fun point analyzer => ?_
      have still := ((standing.expression (0 :: point) value analyzer).trans
        (standing.resolveAnnotated _ point annotated)).trans
        (checkExpected_still _ point value (annotationType
          (resolveAnnotated (expression (0 :: point) value analyzer) point
            annotated).toStatic annotated))
      refine ⟨still.moves.trans (declare_moves _ _ _ _), fun _ => ?_⟩
      rw [declare_static, still.static, passed_let]
      congr 2
      exact congrArg (annotationType · annotated)
        ((standing.expression (0 :: point) value analyzer).trans
          (standing.resolveAnnotated _ point annotated)).static
  | .expression value => fun analyzer => by
      rw [statement]
      exact still_walks (fun _ => rfl) fun point analyzer =>
        standing.expression (0 :: point) value analyzer
  | .function name parameters returnAnnotated body => fun analyzer => by
      rw [statement]
      refine still_walks (fun _ => rfl) fun point analyzer => ?_
      refine inContext_still fun analyzer => ?_
      refine inScope_still analyzer point fun analyzer => ?_
      refine inFunction_moves analyzer fun analyzer => ?_
      exact (declareParameters_moves analyzer point parameters).trans
        (statement_walks .body (0 :: point) body _).moves
  | .return value => fun analyzer => by
      rw [statement]
      refine still_walks (fun _ => rfl) fun point analyzer => ?_
      exact ((standing.checkReturn analyzer point).trans
        (standing.optional (0 :: point) value _)).trans
        (checkExpected_still _ _ _ _)
  | .if test thenBranch elseBranch => fun analyzer => by
      rw [statement]
      refine still_walks (fun _ => rfl) fun point analyzer => ?_
      refine ((standing.expression (0 :: point) test analyzer).trans
        (inContext_still fun analyzer => ?_)).trans
        (otherwise_still point elseBranch _)
      exact inScope_still analyzer (1 :: point) fun analyzer =>
        (statement_walks .body (1 :: point) thenBranch analyzer).moves
  | .while test body => fun analyzer => by
      rw [statement]
      refine still_walks (fun _ => rfl) fun point analyzer => ?_
      refine (standing.expression (0 :: point) test analyzer).trans
        (inLoop_still fun analyzer => inContext_still fun analyzer => ?_)
      exact inScope_still analyzer (1 :: point) fun analyzer =>
        (statement_walks .body (1 :: point) body analyzer).moves
  | .for variableName iterable body => fun analyzer => by
      rw [statement]
      refine still_walks (fun _ => rfl) fun point analyzer => ?_
      refine (standing.expression (0 :: point) iterable analyzer).trans
        (inContext_still fun analyzer => inLoop_still fun analyzer => ?_)
      exact inScope_still analyzer (1 :: point) fun analyzer =>
        (declare_moves analyzer _ _ _).trans
          (statement_walks .body (1 :: point) body _).moves
  | .parallel variableName iterable body => fun analyzer => by
      rw [statement]
      refine still_walks (fun _ => rfl) fun point analyzer => ?_
      refine (standing.expression (0 :: point) iterable analyzer).trans
        (inContext_still fun analyzer => inParallel_still fun analyzer => ?_)
      exact inScope_still analyzer (1 :: point) fun analyzer =>
        (declare_moves analyzer _ _ _).trans
          (statement_walks .body (1 :: point) body _).moves
  | .match value arms => fun analyzer => by
      rw [statement]
      refine still_walks (fun _ => rfl) fun point analyzer => ?_
      exact (standing.expression (0 :: point) value analyzer).trans
        (matchArms_still point 1 arms _)

theorem listed_moves (point : Point) (i : Nat) :
    ∀ (list : List Stmt) (analyzer : Analyzer),
      analyzer.Moves (listed point i list analyzer)
  | [] => fun analyzer => by
      rw [listed]
      exact .refl _
  | node :: rest => fun analyzer => by
      rw [listed]
      exact (inContext_moves analyzer fun analyzer =>
        (statement_walks .listed (i :: point) node analyzer).moves).trans
        (listed_moves point (i + 1) rest _)

theorem otherwise_still (point : Point) :
    ∀ (branch : Option Stmt) (analyzer : Analyzer),
      analyzer.Still (otherwise point branch analyzer)
  | none => fun analyzer => by
      rw [otherwise]
      exact .refl _
  | some branch => fun analyzer => by
      rw [otherwise]
      exact inContext_still fun analyzer =>
        inScope_still analyzer (2 :: point) fun analyzer =>
          (statement_walks .body (2 :: point) branch analyzer).moves

theorem matchArms_still (point : Point) (i : Nat) :
    ∀ (arms : List (Pattern × Stmt)) (analyzer : Analyzer),
      analyzer.Still (matchArms point i arms analyzer)
  | [] => fun analyzer => by
      rw [matchArms]
      exact .refl _
  | (_, body) :: rest => fun analyzer => by
      rw [matchArms]
      exact (inContext_still fun analyzer =>
        inScope_still analyzer (i :: point) fun analyzer =>
          (statement_walks .body (i :: point) body analyzer).moves).trans
        (matchArms_still point (i + 1) rest _)

end

theorem statement_moves (mode : Mode) (point : Point) (node : Stmt)
    (analyzer : Analyzer) :
    analyzer.Moves (statement mode point node analyzer) :=
  (statement_walks mode point node analyzer).moves

end Statements

end Analyzer

end NetLang
