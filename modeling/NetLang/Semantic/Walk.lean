import NetLang.Semantic.Reads

/-!
# Walks of the analyzer

Every change of the analyzer is made by a few operations.  A relation that
these operations keep holds from the start of each analysis to its end; there
is one lemma for each function of the analyzer.
-/

namespace NetLang

namespace Analyzer

/-- An analysis that keeps a relation. -/
def Keeps (rel : Analyzer → Analyzer → Prop)
    (analysis : Analyzer → Analyzer) : Prop :=
  ∀ analyzer, rel analyzer (analysis analyzer)

/-- A relation that the analysis of an expression keeps. -/
structure Follows (rel : Analyzer → Analyzer → Prop) : Prop where
  refl : ∀ analyzer, rel analyzer analyzer
  trans : ∀ {first second third}, rel first second → rel second third →
    rel first third
  report : ∀ (analyzer : Analyzer) point kind message,
    rel analyzer (analyzer.report point kind message)
  visit : ∀ (analyzer : Analyzer) point node,
    rel analyzer (analyzer.visit point node)
  declareType : ∀ (analyzer : Analyzer) name, rel analyzer
    { analyzer with declaredTypes := name :: analyzer.declaredTypes }
  reading : ∀ {α : Type} (analyzer : Analyzer) (read : Read α),
    (analyzer.toStatic.Sound → read.failed = false) →
    rel analyzer (analyzer.reading read)
  located : ∀ {analysis} span, Keeps rel analysis →
    Keeps rel fun analyzer => analyzer.located span analysis

/-- A relation that the analysis of a statement keeps. -/
structure Traverses (rel : Analyzer → Analyzer → Prop) : Prop
    extends Follows rel where
  declare : ∀ (analyzer : Analyzer) point name symbol,
    Declarable analyzer.types symbol →
    rel analyzer (analyzer.declare point name symbol)
  inContext : ∀ {analysis} label, Keeps rel analysis →
    Keeps rel fun analyzer => analyzer.inContext label analysis
  inScope : ∀ {analysis} point, Keeps rel analysis →
    Keeps rel fun analyzer => analyzer.inScope point analysis
  inFunction : ∀ {analysis} returnAnnotated, Keeps rel analysis →
    Keeps rel fun analyzer => analyzer.inFunction returnAnnotated analysis
  inLoop : ∀ {analysis} kind, Keeps rel analysis →
    Keeps rel fun analyzer => analyzer.inLoop kind analysis
  inParallel : ∀ {analysis}, Keeps rel analysis →
    Keeps rel fun analyzer => analyzer.inParallel analysis

/-- A check only reads and reports. -/
theorem checkExpected_static (analyzer : Analyzer) (point : Point)
    (expression : Expr) (expected : Option ResolvedType) :
    (analyzer.checkExpected point expression expected).toStatic =
      analyzer.toStatic := by
  unfold Analyzer.checkExpected
  split
  · unfold Analyzer.checkType
    extract_lets known asked
    split
    · rfl
    · split <;> rfl
  · rfl

variable {rel : Analyzer → Analyzer → Prop}

namespace Follows

variable (follows : Follows rel) (analyzer : Analyzer) (point : Point)
include follows

theorem resolve (name : String) :
    rel analyzer (analyzer.resolve point name) := by
  unfold Analyzer.resolve
  split
  · exact follows.refl _
  · exact follows.report _ _ _ _

theorem resolveType (annotated : TypeAnnotation) :
    rel analyzer (analyzer.resolveType point annotated) := by
  unfold Analyzer.resolveType
  split
  · exact follows.refl _
  · exact follows.located _ (fun analyzer =>
      follows.report analyzer _ _ _) analyzer

theorem resolveAnnotated (annotated : Option TypeAnnotation) :
    rel analyzer (analyzer.resolveAnnotated point annotated) := by
  cases annotated with
  | some annotated => exact follows.resolveType analyzer point annotated
  | none => exact follows.refl _

theorem checkType (expression : Expr) (expected : ResolvedType)
    (defined : analyzer.toStatic.Sound → analyzer.types.Defines expected) :
    rel analyzer (analyzer.checkType point expression expected) := by
  unfold Analyzer.checkType
  extract_lets known asked
  have first : rel analyzer asked := follows.reading analyzer known
    fun sound => knownType_failed sound expression
  split
  · exact first
  · next name named _ _ _ =>
      have second : rel asked named := follows.reading asked name
        fun sound => TypeRegistry.name_failed (defined sound)
      refine follows.trans (follows.trans first second) ?_
      split
      · exact follows.located _ (fun analyzer =>
          follows.report analyzer _ _ _) named
      · exact follows.refl _

/-- A type that is expected, if one is, has a definition. -/
theorem checkExpected (expression : Expr)
    (expected : Option ResolvedType)
    (defined : analyzer.toStatic.Sound →
      ∀ ty, expected = some ty → analyzer.types.Defines ty) :
    rel analyzer (analyzer.checkExpected point expression expected) := by
  cases expected with
  | none => exact follows.refl _
  | some ty =>
      exact follows.checkType analyzer point expression ty
        fun sound => defined sound ty rfl

theorem checkMember (object : Expr) (name : String) :
    rel analyzer (analyzer.checkMember point object name) := by
  unfold Analyzer.checkMember
  extract_lets lacking asked
  refine follows.trans (follows.reading analyzer lacking
    fun sound => lacksMember_failed sound object name) ?_
  split
  · exact follows.report _ _ _ _
  · exact follows.refl _

theorem typeFields (name : String) (fields : List TypeField)
    (seen : List String) :
    rel analyzer (Analyzer.typeFields point name fields seen analyzer) := by
  induction fields generalizing seen analyzer with
  | nil => exact follows.refl _
  | cons field rest induction =>
      unfold Analyzer.typeFields
      extract_lets checked resolved
      have duplicate : rel analyzer checked := by
        unfold checked
        split
        · exact follows.report _ _ _ _
        · exact follows.refl _
      exact follows.trans (follows.trans duplicate
        (follows.resolveType checked point _)) (induction resolved _)

theorem typeDeclaration (name : String) (fields : List TypeField) :
    rel analyzer (analyzer.typeDeclaration point name fields) := by
  unfold Analyzer.typeDeclaration
  extract_lets top reserved declared filled cycle searched
  have first : rel analyzer top := by
    unfold top
    split
    · exact follows.report _ _ _ _
    · exact follows.refl _
  have second : rel top reserved := by
    unfold reserved
    split
    · exact follows.report _ _ _ _
    · exact follows.refl _
  have third : rel reserved declared := by
    unfold declared
    split
    · exact follows.report _ _ _ _
    · exact follows.declareType _ _
  have fourth : rel declared filled :=
    follows.typeFields declared point name fields []
  refine follows.trans (follows.trans first (follows.trans second
    (follows.trans third fourth))) ?_
  refine follows.trans (follows.reading filled cycle
    fun _ => TypeRegistry.hasRequiredCycle_failed name) ?_
  split
  · exact follows.report _ _ _ _
  · exact follows.refl _

theorem constructorType (name : String)
    (definition : Option (List TypeField)) :
    rel analyzer (analyzer.constructorType point name definition) := by
  unfold Analyzer.constructorType
  split
  · exact follows.refl _
  · exact follows.report _ _ _ _

theorem constructorField (name : String)
    (definition : Option (List TypeField)) (seen : List String)
    (key : String) (value : Expr) :
    rel analyzer
      (analyzer.constructorField point name definition seen key value) := by
  unfold Analyzer.constructorField
  extract_lets checked
  have duplicate : rel analyzer checked := by
    unfold checked
    split
    · exact follows.report _ _ _ _
    · exact follows.refl _
  refine follows.trans duplicate ?_
  split
  · exact follows.refl _
  · split
    · exact follows.checkExpected _ _ _ _
        fun _ _ found => TypeRegistry.defines_of_resolve found
    · exact follows.report _ _ _ _

theorem missingFields (name : String) (given : List String)
    (fields : List TypeField) :
    rel analyzer
      (Analyzer.missingFields point name given fields analyzer) := by
  induction fields generalizing analyzer with
  | nil => exact follows.refl _
  | cons field rest induction =>
      unfold Analyzer.missingFields
      extract_lets checked
      have missing : rel analyzer checked := by
        unfold checked
        split
        · exact follows.refl _
        · exact follows.report _ _ _ _
      exact follows.trans missing (induction checked)

theorem checkMutable (name : String) :
    rel analyzer (analyzer.checkMutable point name) := by
  unfold Analyzer.checkMutable
  split
  · exact follows.report _ _ _ _
  · exact follows.refl _

theorem checkTarget (target : Expr) :
    rel analyzer (analyzer.checkTarget point target) := by
  unfold Analyzer.checkTarget
  split
  · exact follows.refl _
  · exact follows.refl _
  · exact follows.refl _
  · exact follows.report _ _ _ _

theorem checkParallelAssignment (target : Expr) :
    rel analyzer (analyzer.checkParallelAssignment point target) := by
  unfold Analyzer.checkParallelAssignment
  split
  · exact follows.report _ _ _ _
  · exact follows.refl _

theorem checkArity (callee : Expr) (given : Nat) :
    rel analyzer (analyzer.checkArity point callee given) := by
  unfold Analyzer.checkArity
  split
  · split
    · exact follows.report _ _ _ _
    · exact follows.refl _
  · exact follows.refl _

theorem checkArguments (arguments : List Expr)
    (parameters : List (Option ResolvedType))
    (defined : analyzer.toStatic.Sound → ∀ expected ∈ parameters,
      ∀ ty, expected = some ty → analyzer.types.Defines ty) :
    rel analyzer
      (Analyzer.checkArguments point arguments parameters analyzer) := by
  induction arguments generalizing parameters analyzer with
  | nil =>
      unfold Analyzer.checkArguments
      exact follows.refl _
  | cons argument rest induction =>
      cases parameters with
      | nil =>
          unfold Analyzer.checkArguments
          exact follows.refl _
      | cons expected parameters =>
          unfold Analyzer.checkArguments
          have same : (analyzer.checkExpected point argument
              expected).toStatic = analyzer.toStatic :=
            checkExpected_static analyzer point argument expected
          refine follows.trans (follows.checkExpected analyzer point argument
            expected fun sound => defined sound expected List.mem_cons_self)
            (induction _ parameters ?_)
          rw [same]
          exact fun sound other member =>
            defined sound other (List.mem_cons_of_mem _ member)

theorem resolveParameters (parameters : List Parameter) :
    rel analyzer (Analyzer.resolveParameters point parameters analyzer) := by
  induction parameters generalizing analyzer with
  | nil => exact follows.refl _
  | cons parameter rest induction =>
      exact follows.trans (follows.resolveAnnotated analyzer point _)
        (induction _)

theorem checkBreak : rel analyzer (analyzer.checkBreak point) := by
  unfold Analyzer.checkBreak
  split
  · exact follows.refl _
  · exact follows.report _ _ _ _
  · exact follows.report _ _ _ _

theorem checkContinue : rel analyzer (analyzer.checkContinue point) := by
  unfold Analyzer.checkContinue
  split
  · exact follows.refl _
  · exact follows.report _ _ _ _

theorem checkReturn : rel analyzer (analyzer.checkReturn point) := by
  unfold Analyzer.checkReturn
  split
  · exact follows.report _ _ _ _
  · split
    · exact follows.report _ _ _ _
    · exact follows.refl _

mutual

theorem expression (point : Point) :
    ∀ node, Keeps rel (Analyzer.expression point node)
  | .located span inner => fun analyzer => by
      rw [Analyzer.expression]
      exact follows.located _ (expression point inner) analyzer
  | .construct name fields => fun analyzer => by
      rw [Analyzer.expression]
      exact follows.trans (follows.trans (follows.trans (follows.trans
        (follows.visit _ _ _) (follows.reading _ _ fun _ =>
          constructedFields_failed name))
        (follows.constructorType _ _ _ _))
        (constructorFields point name _ 0 fields [] _))
        (follows.missingFields _ _ _ _ _)
  | .connection _ address _ => fun analyzer => by
      rw [Analyzer.expression]
      exact follows.trans (follows.visit _ _ _) (expression _ address _)
  | .send connection data destination => fun analyzer => by
      rw [Analyzer.expression]
      exact follows.trans (follows.trans (follows.trans
        (follows.visit _ _ _) (expression _ connection _))
        (expression _ data _)) (optional _ destination _)
  | .receive connection => fun analyzer => by
      rw [Analyzer.expression]
      exact follows.trans (follows.visit _ _ _) (expression _ connection _)
  | .request _ url config => fun analyzer => by
      rw [Analyzer.expression]
      exact follows.trans (follows.trans (follows.visit _ _ _)
        (expression _ url _)) (optional _ config _)
  | .integer _ | .float _ | .string _ | .boolean _ | .null
  | .duration _ => fun analyzer => by
      rw [Analyzer.expression]
      exact follows.visit _ _ _
  | .identifier name => fun analyzer => by
      rw [Analyzer.expression]
      exact follows.trans (follows.visit _ _ _) (follows.resolve _ _ _)
  | .array values => fun analyzer => by
      rw [Analyzer.expression]
      exact follows.trans (follows.visit _ _ _)
        (expressions _ 0 values _)
  | .object fields => fun analyzer => by
      rw [Analyzer.expression]
      exact follows.trans (follows.visit _ _ _) (fieldValues _ 0 fields _)
  | .unary _ operand => fun analyzer => by
      rw [Analyzer.expression]
      exact follows.trans (follows.visit _ _ _) (expression _ operand _)
  | .binary left _ right => fun analyzer => by
      rw [Analyzer.expression]
      exact follows.trans (follows.trans (follows.visit _ _ _)
        (expression _ left _)) (expression _ right _)
  | .assignment target value => fun analyzer => by
      rw [Analyzer.expression]
      refine follows.trans (follows.trans (follows.trans (follows.trans
        (follows.visit _ _ _) (follows.located _ (fun analyzer => ?_) _))
        (expression _ value _)) (follows.reading _ _ fun sound =>
          targetType_failed sound _)) (follows.checkExpected _ _ _ _
            fun sound _ known => targetType_defined sound known)
      refine follows.trans ?_ (follows.checkParallelAssignment _ _ _)
      split
      · exact follows.trans (follows.resolve _ _ _)
          (follows.checkMutable _ _ _)
      · exact follows.trans (follows.checkTarget _ _ _)
          (expression _ target _)
  | .call callee arguments => fun analyzer => by
      rw [Analyzer.expression]
      exact follows.trans (follows.trans (follows.trans (follows.trans
        (follows.visit _ _ _) (expression _ callee _))
        (follows.checkArity _ _ _ _)) (expressions _ 1 arguments _))
        (follows.checkArguments _ _ _ _ fun sound =>
          calleeParameters_defined sound _)
  | .property object name => fun analyzer => by
      rw [Analyzer.expression]
      exact follows.trans (follows.trans (follows.visit _ _ _)
        (expression _ object _)) (follows.checkMember _ _ _ _)
  | .index object subscript => fun analyzer => by
      rw [Analyzer.expression]
      have walked : rel analyzer (Analyzer.expression (1 :: point) subscript
          (Analyzer.expression (0 :: point) object (analyzer.visit point
            (.expression (.index object subscript))))) :=
        follows.trans (follows.trans (follows.visit _ _ _)
          (expression _ object _)) (expression _ subscript _)
      split
      · exact follows.trans walked (follows.checkMember _ _ _ _)
      · exact walked

theorem optional (point : Point) :
    ∀ node, Keeps rel (Analyzer.optional point node)
  | none => fun analyzer => by
      rw [Analyzer.optional]
      exact follows.refl _
  | some node => fun analyzer => by
      rw [Analyzer.optional]
      exact expression point node analyzer

theorem expressions (point : Point) (i : Nat) :
    ∀ values, Keeps rel (Analyzer.expressions point i values)
  | [] => fun analyzer => by
      rw [Analyzer.expressions]
      exact follows.refl _
  | value :: rest => fun analyzer => by
      rw [Analyzer.expressions]
      exact follows.trans (expression _ value _)
        (expressions point (i + 1) rest _)

theorem fieldValues (point : Point) (i : Nat) :
    ∀ fields, Keeps rel (Analyzer.fieldValues point i fields)
  | [] => fun analyzer => by
      rw [Analyzer.fieldValues]
      exact follows.refl _
  | (_, value) :: rest => fun analyzer => by
      rw [Analyzer.fieldValues]
      exact follows.trans (expression _ value _)
        (fieldValues point (i + 1) rest _)

theorem constructorFields (point : Point) (name : String)
    (definition : Option (List TypeField)) (i : Nat) :
    ∀ fields seen, Keeps rel
      (Analyzer.constructorFields point name definition i fields seen)
  | [], seen => fun analyzer => by
      rw [Analyzer.constructorFields]
      exact follows.refl _
  | (key, value) :: rest, seen => fun analyzer => by
      rw [Analyzer.constructorFields]
      exact follows.trans (follows.trans (expression _ value _)
        (follows.constructorField _ _ _ _ _ _ _))
        (constructorFields point name definition (i + 1) rest _ _)

end

end Follows

namespace Traverses

variable (walks : Traverses rel) (analyzer : Analyzer) (point : Point)
include walks

theorem declareParameters (parameters : List Parameter) :
    rel analyzer (Analyzer.declareParameters point parameters analyzer) := by
  induction parameters generalizing analyzer with
  | nil => exact walks.refl _
  | cons parameter rest induction =>
      exact walks.trans (walks.declare analyzer point _ _
        (parameter_declarable _ _)) (induction _)

theorem hoistStatement (node : Stmt) :
    rel analyzer (analyzer.hoistStatement point node) := by
  unfold Analyzer.hoistStatement
  split
  · exact walks.trans (walks.trans (walks.resolveParameters analyzer point _)
      (walks.resolveAnnotated _ point _))
      (walks.declare _ _ _ _ (functionSymbol_declarable _ _ _))
  · exact walks.refl _

theorem hoist (i : Nat) (list : List Stmt) :
    rel analyzer (Analyzer.hoist point i list analyzer) := by
  induction list generalizing i analyzer with
  | nil => exact walks.refl _
  | cons node rest induction =>
      have hoists : Keeps rel fun analyzer =>
          analyzer.hoistStatement (i :: point) node :=
        fun analyzer => walks.hoistStatement analyzer (i :: point) node
      exact walks.trans (walks.located node.span
        (walks.inContext (statementLabel i) hoists) analyzer) (induction _ _)

theorem reached (mode : Mode) (node : Stmt)
    {analysis : Point → Analyzer → Analyzer}
    (keeps : ∀ point, Keeps rel (analysis point)) :
    rel analyzer (Analyzer.reached mode point node analysis analyzer) := by
  have visits : ∀ point, Keeps rel fun analyzer =>
      analysis point (analyzer.visit point (.statement node)) :=
    fun point analyzer =>
      walks.trans (walks.visit analyzer point _) (keeps point _)
  cases mode with
  | listed => exact visits point analyzer
  | body =>
      exact walks.trans (walks.hoist analyzer point 0 [node])
        (walks.inContext (statementLabel 0) (visits (0 :: point)) _)

mutual

theorem statement (mode : Mode) (point : Point) :
    ∀ node, Keeps rel (Analyzer.statement mode point node)
  | .located span inner => fun analyzer => by
      rw [Analyzer.statement]
      exact walks.located _ (statement mode point inner) analyzer
  | .block list => fun analyzer => by
      have lists : ∀ point, Keeps rel fun analyzer =>
          Analyzer.listed point 0 list
            (Analyzer.hoist point 0 list analyzer) :=
        fun point analyzer => walks.trans
          (walks.hoist analyzer point 0 list) (listed point 0 list _)
      cases mode with
      | listed =>
          rw [Analyzer.statement]
          exact walks.trans (walks.visit _ _ _) (walks.inContext "block"
            (walks.inScope _ (lists _)) _)
      | body =>
          rw [Analyzer.statement]
          exact lists point analyzer
  | .type name fields => fun analyzer => by
      rw [Analyzer.statement]
      exact walks.reached _ _ _ _ fun point analyzer =>
        walks.typeDeclaration analyzer point name fields
  | .break => fun analyzer => by
      rw [Analyzer.statement]
      exact walks.reached _ _ _ _ fun point analyzer =>
        walks.checkBreak analyzer point
  | .continue => fun analyzer => by
      rw [Analyzer.statement]
      exact walks.reached _ _ _ _ fun point analyzer =>
        walks.checkContinue analyzer point
  | .let name annotated value => fun analyzer => by
      rw [Analyzer.statement]
      refine walks.reached _ _ _ _ fun point analyzer => ?_
      extract_lets evaluated resolved ty checked
      have declarable : Declarable checked.types (.variable ty) := by
        have same : checked.types = resolved.types := congrArg Static.types
          (checkExpected_static resolved point value ty)
        exact same ▸ variable_declarable resolved.toStatic annotated
      exact walks.trans (walks.trans (walks.trans
        (walks.expression _ value _)
        (walks.resolveAnnotated evaluated point annotated))
        (walks.checkExpected resolved point value ty
          fun _ _ found => annotationType_defined found))
        (walks.declare _ _ _ _ declarable)
  | .expression value => fun analyzer => by
      rw [Analyzer.statement]
      exact walks.reached _ _ _ _ fun point =>
        walks.expression (0 :: point) value
  | .function name parameters returnAnnotated body => fun analyzer => by
      rw [Analyzer.statement]
      refine walks.reached _ _ _ _ fun point => ?_
      exact walks.inContext _ (walks.inScope _ (walks.inFunction _
        fun analyzer => walks.trans
          (walks.declareParameters analyzer point parameters)
          (statement .body (0 :: point) body _)))
  | .return value => fun analyzer => by
      rw [Analyzer.statement]
      refine walks.reached _ _ _ _ fun point analyzer => ?_
      exact walks.trans (walks.trans (walks.checkReturn analyzer point)
        (walks.optional _ value _)) (walks.checkExpected _ _ _ _
          fun sound => sound.returnType)
  | .if test thenBranch elseBranch => fun analyzer => by
      rw [Analyzer.statement]
      refine walks.reached _ _ _ _ fun point analyzer => ?_
      exact walks.trans (walks.trans (walks.expression _ test _)
        (walks.inContext _ (walks.inScope _
          (statement .body (1 :: point) thenBranch)) _))
        (otherwise point elseBranch _)
  | .while test body => fun analyzer => by
      rw [Analyzer.statement]
      refine walks.reached _ _ _ _ fun point analyzer => ?_
      exact walks.trans (walks.expression _ test _)
        (walks.inLoop _ (walks.inContext _ (walks.inScope _
          (statement .body (1 :: point) body))) _)
  | .for variableName iterable body => fun analyzer => by
      rw [Analyzer.statement]
      refine walks.reached _ _ _ _ fun point analyzer => ?_
      exact walks.trans (walks.expression _ iterable _)
        (walks.inContext _ (walks.inLoop _ (walks.inScope _
          fun analyzer => walks.trans (walks.declare analyzer point
            variableName _ (loopVariable_declarable _))
            (statement .body (1 :: point) body _))) _)
  | .parallel variableName iterable body => fun analyzer => by
      rw [Analyzer.statement]
      refine walks.reached _ _ _ _ fun point analyzer => ?_
      exact walks.trans (walks.expression _ iterable _)
        (walks.inContext _ (walks.inParallel (walks.inScope _
          fun analyzer => walks.trans (walks.declare analyzer point
            variableName _ (loopVariable_declarable _))
            (statement .body (1 :: point) body _))) _)
  | .match value arms => fun analyzer => by
      rw [Analyzer.statement]
      refine walks.reached _ _ _ _ fun point analyzer => ?_
      exact walks.trans (walks.expression _ value _)
        (matchArms point 1 arms _)

theorem listed (point : Point) (i : Nat) :
    ∀ list, Keeps rel (Analyzer.listed point i list)
  | [] => fun analyzer => by
      rw [Analyzer.listed]
      exact walks.refl _
  | node :: rest => fun analyzer => by
      rw [Analyzer.listed]
      exact walks.trans (walks.inContext _
        (statement .listed (i :: point) node) analyzer)
        (listed point (i + 1) rest _)

theorem otherwise (point : Point) :
    ∀ branch, Keeps rel (Analyzer.otherwise point branch)
  | none => fun analyzer => by
      rw [Analyzer.otherwise]
      exact walks.refl _
  | some branch => fun analyzer => by
      rw [Analyzer.otherwise]
      exact walks.inContext _ (walks.inScope _
        (statement .body (2 :: point) branch)) analyzer

theorem matchArms (point : Point) (i : Nat) :
    ∀ arms, Keeps rel (Analyzer.matchArms point i arms)
  | [] => fun analyzer => by
      rw [Analyzer.matchArms]
      exact walks.refl _
  | (_, body) :: rest => fun analyzer => by
      rw [Analyzer.matchArms]
      exact walks.trans (walks.inContext _ (walks.inScope _
        (statement .body (i :: point) body)) analyzer)
        (matchArms point (i + 1) rest _)

end

theorem statements (point : Point) (list : List Stmt) :
    Keeps rel (Analyzer.statements point list) :=
  fun analyzer => walks.trans (walks.hoist analyzer point 0 list)
    (walks.listed point 0 list _)

end Traverses

end Analyzer

end NetLang
