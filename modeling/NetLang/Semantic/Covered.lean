import NetLang.Semantic.Survey

/-!
# What a survey covers

The last analyzer of a walk has collected what the analysis of each part of
the program reports and visits.  There is one lemma for each construct, which
says where its parts were analyzed.
-/

namespace NetLang

namespace Analyzer

/-- The analyzer has collected what the analysis collects, where it stands as
given. -/
def Covers (final : Analyzer) (static : Static)
    (analysis : Analyzer → Analyzer) : Prop :=
  ∃ analyzer : Analyzer, analyzer.toStatic = static ∧
    (analysis analyzer).Gathers final

def Visited (final : Analyzer) (static : Static) (point : Point)
    (node : Node) : Prop :=
  ⟨point, node, static⟩ ∈ final.visits

def Reports (final : Analyzer) (kind : SemanticErrorKind) : Prop :=
  ∃ report ∈ final.reports, report.error.kind = kind

variable {final : Analyzer} {static : Static} {point : Point}

section Rules

variable {before after : Analyzer} {analysis : Analyzer → Analyzer}

theorem Still.covers (still : before.Still after)
    (held : (analysis after).Gathers final) :
    Covers final before.toStatic analysis :=
  ⟨after, still.static, held⟩

theorem visited_of {node : Node}
    (held : (before.visit point node).Gathers final) :
    Visited final before.toStatic point node :=
  held.visits (by simp [visit])

theorem reports_of {kind : SemanticErrorKind} {message : String}
    (held : (before.report point kind message).Gathers final) :
    Reports final kind :=
  ⟨_, held.reports (List.mem_append_right _ (List.mem_singleton.mpr rfl)),
    rfl⟩

theorem Covers.located {span : Option Span}
    (covers : Covers final static fun analyzer =>
      analyzer.located span analysis) : Covers final static analysis := by
  obtain ⟨analyzer, rfl, held⟩ := covers
  exact ⟨{ analyzer with currentSpan := span.or analyzer.currentSpan }, rfl,
    held.reports, held.visits⟩

theorem Covers.inContext {label : String}
    (covers : Covers final static fun analyzer =>
      analyzer.inContext label analysis) : Covers final static analysis := by
  obtain ⟨analyzer, rfl, held⟩ := covers
  exact ⟨{ analyzer with context := analyzer.context ++ [label] }, rfl,
    held.reports, held.visits⟩

theorem Covers.inScope
    (covers : Covers final static fun analyzer =>
      analyzer.inScope point analysis) :
    Covers final { static with scopes := ⟨point, []⟩ :: static.scopes }
      analysis := by
  obtain ⟨analyzer, rfl, held⟩ := covers
  exact ⟨{ analyzer with scopes := ⟨point, []⟩ :: analyzer.scopes }, rfl,
    held.reports, held.visits⟩

theorem Covers.inLoop {kind : LoopKind}
    (covers : Covers final static fun analyzer =>
      analyzer.inLoop kind analysis) :
    Covers final { static with loops := kind :: static.loops } analysis := by
  obtain ⟨analyzer, rfl, held⟩ := covers
  exact ⟨{ analyzer with loops := kind :: analyzer.loops }, rfl,
    held.reports, held.visits⟩

theorem Covers.inParallel
    (covers : Covers final static fun analyzer =>
      analyzer.inParallel analysis) :
    Covers final { static with
      loops := .parallel :: static.loops
      parallelBoundaries := (static.scopes.depth, static.functionDepth) ::
        static.parallelBoundaries } analysis := by
  obtain ⟨analyzer, rfl, held⟩ := covers
  exact ⟨{ analyzer with
      loops := .parallel :: analyzer.loops
      parallelBoundaries := (analyzer.scopes.depth, analyzer.functionDepth) ::
        analyzer.parallelBoundaries }, rfl, held.reports, held.visits⟩

theorem Covers.inFunction {returnAnnotated : Option TypeAnnotation}
    (covers : Covers final static fun analyzer =>
      analyzer.inFunction returnAnnotated analysis) :
    Covers final { static with
      functionDepth := static.functionDepth + 1
      loops := []
      returnType := annotationType static returnAnnotated } analysis := by
  obtain ⟨analyzer, rfl, held⟩ := covers
  exact ⟨{ analyzer with
      functionDepth := analyzer.functionDepth + 1
      loops := []
      returnType := annotationType analyzer.toStatic returnAnnotated }, rfl,
    held.reports, held.visits⟩

end Rules

section Checks

/-- A name that does not resolve was reported. -/
theorem covers_resolve {name : String}
    (covers : Covers final static fun analyzer =>
      analyzer.resolve point name)
    (missing : static.scopes.resolve name = none) :
    Reports final .undefinedName := by
  obtain ⟨analyzer, rfl, held⟩ := covers
  simp only [resolve, missing] at held
  exact reports_of held

theorem covers_checkMutable {name : String}
    (covers : Covers final static fun analyzer =>
      analyzer.checkMutable point name)
    (immutable : isImmutable static name = true) :
    Reports final .immutableAssignment := by
  obtain ⟨analyzer, rfl, held⟩ := covers
  simp only [checkMutable, immutable, if_true] at held
  exact reports_of held

theorem covers_checkArity {callee : Expr} {given arity : Nat}
    {name : String}
    (covers : Covers final static fun analyzer =>
      analyzer.checkArity point callee given)
    (known : calleeArity static callee = some (name, arity))
    (different : arity ≠ given) : Reports final .argumentCount := by
  obtain ⟨analyzer, rfl, held⟩ := covers
  simp only [checkArity, known, ne_eq, different, not_false_eq_true,
    if_true] at held
  exact reports_of held

/-- Where no duplicate is reported, each declaration has succeeded. -/
theorem covers_declare {name : String} {symbol : Symbol}
    (single : ¬ Reports final .duplicateDeclaration)
    (covers : Covers final static fun analyzer =>
      analyzer.declare point name symbol) :
    ∃ scopes, static.scopes.declare name symbol = some scopes := by
  obtain ⟨analyzer, rfl, held⟩ := covers
  cases found : analyzer.scopes.declare name symbol with
  | some scopes => exact ⟨scopes, rfl⟩
  | none =>
      simp only [declare, found] at held
      exact absurd (reports_of held) single

end Checks

section Expressions

theorem covers_located {span : Span} {inner : Expr}
    (covers : Covers final static
      (expression point (.located span inner))) :
    Covers final static (expression point inner) := by
  obtain ⟨analyzer, same, held⟩ := covers
  rw [expression] at held
  have opened : Covers final static fun analyzer =>
      analyzer.located (some span) (expression point inner) :=
    ⟨analyzer, same, held⟩
  exact opened.located

theorem covers_construct {name : String} {fields : List (String × Expr)}
    (covers : Covers final static
      (expression point (.construct name fields))) :
    Visited final static point (.expression (.construct name fields)) ∧
      ∃ definition, Covers final static
        (constructorFields point name definition 0 fields []) := by
  obtain ⟨analyzer, rfl, held⟩ := covers
  rw [expression] at held
  have entered := visit_still analyzer point
    (.expression (.construct name fields))
  have read := entered.trans (reading_still _
    (constructedFields (analyzer.visit point
      (.expression (.construct name fields))).toStatic name))
  have checked := read.trans (standing.constructorType _ point name
    (constructedFields (analyzer.visit point
      (.expression (.construct name fields))).toStatic name).value)
  have walked := (standing.missingFields _ _ _ _ _).gathers.trans held
  refine ⟨visited_of ?_, _, checked.covers walked⟩
  exact (((reading_still _ _).trans (standing.constructorType _ _ name _)).trans
    (standing.constructorFields point name _ 0 fields [] _)).gathers.trans
      walked

theorem covers_connection {transport : Transport} {address : Expr}
    {protocol : Option String}
    (covers : Covers final static
      (expression point (.connection transport address protocol))) :
    Visited final static point
        (.expression (.connection transport address protocol)) ∧
      Covers final static (expression (0 :: point) address) := by
  obtain ⟨analyzer, rfl, held⟩ := covers
  rw [expression] at held
  exact ⟨visited_of ((standing.expression _ _ _).gathers.trans held),
    (visit_still _ _ _).covers held⟩

theorem covers_send {connection data : Expr} {destination : Option Expr}
    (covers : Covers final static
      (expression point (.send connection data destination))) :
    Visited final static point
        (.expression (.send connection data destination)) ∧
      Covers final static (expression (0 :: point) connection) ∧
      Covers final static (expression (1 :: point) data) ∧
      Covers final static (optional (2 :: point) destination) := by
  obtain ⟨analyzer, rfl, held⟩ := covers
  rw [expression] at held
  have entered := visit_still analyzer point
    (.expression (.send connection data destination))
  have first := entered.trans (standing.expression (0 :: point) connection _)
  have second := first.trans (standing.expression (1 :: point) data _)
  have third := (standing.optional _ _ _).gathers.trans held
  have others := (standing.expression _ _ _).gathers.trans third
  exact ⟨visited_of ((standing.expression _ _ _).gathers.trans others),
    entered.covers others, first.covers third, second.covers held⟩

theorem covers_receive {connection : Expr}
    (covers : Covers final static
      (expression point (.receive connection))) :
    Visited final static point (.expression (.receive connection)) ∧
      Covers final static (expression (0 :: point) connection) := by
  obtain ⟨analyzer, rfl, held⟩ := covers
  rw [expression] at held
  exact ⟨visited_of ((standing.expression _ _ _).gathers.trans held),
    (visit_still _ _ _).covers held⟩

theorem covers_request {method : HttpMethod} {url : Expr}
    {config : Option Expr}
    (covers : Covers final static
      (expression point (.request method url config))) :
    Visited final static point (.expression (.request method url config)) ∧
      Covers final static (expression (0 :: point) url) ∧
      Covers final static (optional (1 :: point) config) := by
  obtain ⟨analyzer, rfl, held⟩ := covers
  rw [expression] at held
  have entered := visit_still analyzer point
    (.expression (.request method url config))
  have first := entered.trans (standing.expression (0 :: point) url _)
  have second := (standing.optional _ _ _).gathers.trans held
  exact ⟨visited_of ((standing.expression _ _ _).gathers.trans second),
    entered.covers second, first.covers held⟩

theorem covers_identifier {name : String}
    (covers : Covers final static (expression point (.identifier name))) :
    Visited final static point (.expression (.identifier name)) ∧
      Covers final static fun analyzer => analyzer.resolve point name := by
  obtain ⟨analyzer, rfl, held⟩ := covers
  rw [expression] at held
  exact ⟨visited_of ((standing.resolve _ _ _).gathers.trans held),
    (visit_still _ _ _).covers held⟩

theorem covers_array {values : List Expr}
    (covers : Covers final static (expression point (.array values))) :
    Visited final static point (.expression (.array values)) ∧
      Covers final static (expressions point 0 values) := by
  obtain ⟨analyzer, rfl, held⟩ := covers
  rw [expression] at held
  exact ⟨visited_of ((standing.expressions _ _ _ _).gathers.trans held),
    (visit_still _ _ _).covers held⟩

theorem covers_object {fields : List (String × Expr)}
    (covers : Covers final static (expression point (.object fields))) :
    Visited final static point (.expression (.object fields)) ∧
      Covers final static (fieldValues point 0 fields) := by
  obtain ⟨analyzer, rfl, held⟩ := covers
  rw [expression] at held
  exact ⟨visited_of ((standing.fieldValues _ _ _ _).gathers.trans held),
    (visit_still _ _ _).covers held⟩

theorem covers_unary {operator : UnaryOp} {operand : Expr}
    (covers : Covers final static
      (expression point (.unary operator operand))) :
    Visited final static point (.expression (.unary operator operand)) ∧
      Covers final static (expression (0 :: point) operand) := by
  obtain ⟨analyzer, rfl, held⟩ := covers
  rw [expression] at held
  exact ⟨visited_of ((standing.expression _ _ _).gathers.trans held),
    (visit_still _ _ _).covers held⟩

theorem covers_binary {left right : Expr} {op : BinaryOp}
    (covers : Covers final static
      (expression point (.binary left op right))) :
    Visited final static point (.expression (.binary left op right)) ∧
      Covers final static (expression (0 :: point) left) ∧
      Covers final static (expression (1 :: point) right) := by
  obtain ⟨analyzer, rfl, held⟩ := covers
  rw [expression] at held
  have entered := visit_still analyzer point
    (.expression (.binary left op right))
  have first := entered.trans (standing.expression (0 :: point) left _)
  have second := (standing.expression _ _ _).gathers.trans held
  exact ⟨visited_of ((standing.expression _ _ _).gathers.trans second),
    entered.covers second, first.covers held⟩

theorem covers_call {callee : Expr} {arguments : List Expr}
    (covers : Covers final static
      (expression point (.call callee arguments))) :
    Visited final static point (.expression (.call callee arguments)) ∧
      Covers final static (expression (0 :: point) callee) ∧
      Covers final static (fun analyzer =>
        analyzer.checkArity point callee.unspanned arguments.length) ∧
      Covers final static (expressions point 1 arguments) := by
  obtain ⟨analyzer, rfl, held⟩ := covers
  rw [expression] at held
  have entered := visit_still analyzer point
    (.expression (.call callee arguments))
  have first := entered.trans (standing.expression (0 :: point) callee _)
  have second := first.trans
    (standing.checkArity _ point callee.unspanned arguments.length)
  have third := (checkArguments_still _ _ _ _).gathers.trans held
  have others := (standing.expressions _ _ _ _).gathers.trans third
  have checked := (standing.checkArity _ _ _ _).gathers.trans others
  exact ⟨visited_of ((standing.expression _ _ _).gathers.trans checked),
    entered.covers checked, first.covers others, second.covers third⟩

theorem covers_property {object : Expr} {name : String}
    (covers : Covers final static
      (expression point (.property object name))) :
    Visited final static point (.expression (.property object name)) ∧
      Covers final static (expression (0 :: point) object) := by
  obtain ⟨analyzer, rfl, held⟩ := covers
  rw [expression] at held
  have checked := (standing.checkMember _ _ _ _).gathers.trans held
  exact ⟨visited_of ((standing.expression _ _ _).gathers.trans checked),
    (visit_still _ _ _).covers checked⟩

theorem covers_index {object subscript : Expr}
    (covers : Covers final static
      (expression point (.index object subscript))) :
    Visited final static point (.expression (.index object subscript)) ∧
      Covers final static (expression (0 :: point) object) ∧
      Covers final static (expression (1 :: point) subscript) := by
  obtain ⟨analyzer, rfl, held⟩ := covers
  have entered := visit_still analyzer point
    (.expression (.index object subscript))
  have first := entered.trans (standing.expression (0 :: point) object _)
  have walked : (expression (1 :: point) subscript
      (expression (0 :: point) object (analyzer.visit point
        (.expression (.index object subscript))))).Gathers final := by
    rw [expression] at held
    split at held
    · exact (standing.checkMember _ _ _ _).gathers.trans held
    · exact held
  have second := (standing.expression _ _ _).gathers.trans walked
  exact ⟨visited_of ((standing.expression _ _ _).gathers.trans second),
    entered.covers second, first.covers walked⟩

/-- A direct target is looked up, and any other one is an expression. -/
theorem covers_assignment {target value : Expr}
    (covers : Covers final static
      (expression point (.assignment target value))) :
    Visited final static point (.expression (.assignment target value)) ∧
      (∀ name, target.unspanned.identifier? = some name →
        (Covers final static fun analyzer => analyzer.resolve point name) ∧
        Covers final static fun analyzer =>
          analyzer.checkMutable point name) ∧
      (target.unspanned.identifier? = none →
        Covers final static (expression (0 :: point) target)) ∧
      Covers final static (expression (1 :: point) value) := by
  obtain ⟨analyzer, rfl, held⟩ := covers
  rw [expression] at held
  have valued := ((reading_still _ _).trans
    (checkExpected_still _ _ _ _)).gathers.trans held
  have entered := visit_still analyzer point
    (.expression (.assignment target value))
  cases direct : target.unspanned.identifier? with
  | some name =>
      simp only [direct] at valued
      have checked : ∀ analyzer : Analyzer, analyzer.Still
          (((analyzer.resolve point name).checkMutable point
            name).checkParallelAssignment point target) :=
        fun analyzer => ((standing.resolve _ _ _).trans
          (standing.checkMutable _ _ _)).trans
            (standing.checkParallelAssignment _ _ _)
      have inside := (standing.expression _ _ _).gathers.trans valued
      have opened : Covers final analyzer.toStatic fun analyzer =>
          ((analyzer.resolve point name).checkMutable point
            name).checkParallelAssignment point _ :=
        (entered.covers inside).located
      obtain ⟨start, same, found⟩ := opened
      have mutable :=
        (standing.checkParallelAssignment _ _ _).gathers.trans found
      refine ⟨visited_of ((located_still checked).gathers.trans inside), ?_,
        nofun, (entered.trans (located_still checked)).covers valued⟩
      rintro _ ⟨⟩
      rw [← same]
      exact ⟨⟨start, rfl, (standing.checkMutable _ _ _).gathers.trans mutable⟩,
        (standing.resolve _ _ _).covers mutable⟩
  | none =>
      simp only [direct] at valued
      have checked : ∀ analyzer : Analyzer, analyzer.Still
          ((expression (0 :: point) target (analyzer.checkTarget point
            target.unspanned)).checkParallelAssignment point target) :=
        fun analyzer => ((standing.checkTarget _ _ _).trans
          (standing.expression _ _ _)).trans
            (standing.checkParallelAssignment _ _ _)
      have inside := (standing.expression _ _ _).gathers.trans valued
      have opened : Covers final analyzer.toStatic fun analyzer =>
          (expression (0 :: point) target (analyzer.checkTarget point
            target.unspanned)).checkParallelAssignment point target :=
        (entered.covers inside).located
      obtain ⟨start, same, found⟩ := opened
      have path := (standing.checkParallelAssignment _ _ _).gathers.trans found
      refine ⟨visited_of ((located_still checked).gathers.trans inside), nofun,
        fun _ => ?_, (entered.trans (located_still checked)).covers valued⟩
      rw [← same]
      exact (standing.checkTarget _ _ _).covers path

/-- A node under its locations is visited. -/
theorem covers_visited {node : Expr}
    (bare : ∀ span inner, node ≠ .located span inner)
    (covers : Covers final static (expression point node)) :
    Visited final static point (.expression node) := by
  cases node with
  | located span inner =>
      exact absurd rfl (bare span inner)
  | construct name fields => exact (covers_construct covers).1
  | connection transport address protocol =>
      exact (covers_connection covers).1
  | send connection data destination => exact (covers_send covers).1
  | receive connection => exact (covers_receive covers).1
  | request method url config => exact (covers_request covers).1
  | identifier name => exact (covers_identifier covers).1
  | array values => exact (covers_array covers).1
  | object fields => exact (covers_object covers).1
  | unary operator operand => exact (covers_unary covers).1
  | binary left op right => exact (covers_binary covers).1
  | assignment target value => exact (covers_assignment covers).1
  | call callee arguments => exact (covers_call covers).1
  | property object name => exact (covers_property covers).1
  | index object subscript => exact (covers_index covers).1
  | _ =>
      obtain ⟨analyzer, rfl, held⟩ := covers
      rw [expression] at held
      exact visited_of held

theorem covers_optional {node : Expr}
    (covers : Covers final static (optional point (some node))) :
    Covers final static (expression point node) := by
  obtain ⟨analyzer, same, held⟩ := covers
  rw [optional] at held
  exact ⟨analyzer, same, held⟩

theorem covers_expressions {i : Nat} {value : Expr} {rest : List Expr}
    (covers : Covers final static (expressions point i (value :: rest))) :
    Covers final static (expression (i :: point) value) ∧
      Covers final static (expressions point (i + 1) rest) := by
  obtain ⟨analyzer, rfl, held⟩ := covers
  rw [expressions] at held
  exact ⟨⟨analyzer, rfl, (standing.expressions _ _ _ _).gathers.trans held⟩,
    (standing.expression _ _ _).covers held⟩

theorem covers_fieldValues {i : Nat} {key : String} {value : Expr}
    {rest : List (String × Expr)}
    (covers : Covers final static
      (fieldValues point i ((key, value) :: rest))) :
    Covers final static (expression (i :: point) value) ∧
      Covers final static (fieldValues point (i + 1) rest) := by
  obtain ⟨analyzer, rfl, held⟩ := covers
  rw [fieldValues] at held
  exact ⟨⟨analyzer, rfl, (standing.fieldValues _ _ _ _).gathers.trans held⟩,
    (standing.expression _ _ _).covers held⟩

theorem covers_constructorFields {name : String}
    {definition : Option (List TypeField)} {i : Nat} {key : String}
    {value : Expr} {rest : List (String × Expr)} {seen : List String}
    (covers : Covers final static
      (constructorFields point name definition i ((key, value) :: rest)
        seen)) :
    Covers final static (expression (i :: point) value) ∧
      Covers final static
        (constructorFields point name definition (i + 1) rest
          (key :: seen)) := by
  obtain ⟨analyzer, rfl, held⟩ := covers
  rw [constructorFields] at held
  have checked := (standing.constructorFields _ _ _ _ _ _ _).gathers.trans held
  exact ⟨⟨analyzer, rfl, (standing.constructorField _ _ _ _ _ _ _).gathers.trans
      checked⟩,
    ((standing.expression _ _ _).trans
      (standing.constructorField _ _ _ _ _ _ _)).covers held⟩

end Expressions

section Declarations

variable {rest : Analyzer → Analyzer}

theorem covers_declared {name : String} {symbol : Symbol}
    (gathers : ∀ analyzer : Analyzer, analyzer.Gathers (rest analyzer))
    (covers : Covers final static fun analyzer =>
      rest (analyzer.declare point name symbol)) :
    (Covers final static fun analyzer =>
        analyzer.declare point name symbol) ∧
      Covers final (static.declared name symbol) rest := by
  obtain ⟨analyzer, rfl, held⟩ := covers
  exact ⟨⟨analyzer, rfl, (gathers _).trans held⟩,
    ⟨_, declare_static analyzer point name symbol, held⟩⟩

theorem covers_parameterized {parameters : List Parameter}
    (gathers : ∀ analyzer : Analyzer, analyzer.Gathers (rest analyzer))
    (covers : Covers final static fun analyzer =>
      rest (declareParameters point parameters analyzer)) :
    Covers final static (declareParameters point parameters) ∧
      Covers final (static.parameterized parameters) rest := by
  obtain ⟨analyzer, rfl, held⟩ := covers
  exact ⟨⟨analyzer, rfl, (gathers _).trans held⟩,
    ⟨_, declareParameters_static analyzer point parameters, held⟩⟩

theorem covers_declareParameters {parameter : Parameter}
    {parameters : List Parameter}
    (covers : Covers final static
      (declareParameters point (parameter :: parameters))) :
    (Covers final static fun analyzer => analyzer.declare point
        parameter.name
        (.parameter (annotationType static parameter.annotated))) ∧
      Covers final (static.declared parameter.name
          (.parameter (annotationType static parameter.annotated)))
        (declareParameters point parameters) := by
  obtain ⟨analyzer, rfl, held⟩ := covers
  rw [declareParameters] at held
  exact ⟨⟨analyzer, rfl,
      (declareParameters_moves _ _ _).gathers.trans held⟩,
    ⟨_, declare_static analyzer point _ _, held⟩⟩

theorem covers_hoist {i : Nat} {node : Stmt} {list : List Stmt}
    (covers : Covers final static (hoist point i (node :: list))) :
    (Covers final static fun analyzer =>
        analyzer.hoistStatement (i :: point) node) ∧
      Covers final (static.hoisted [node]) (hoist point (i + 1) list) := by
  obtain ⟨analyzer, rfl, held⟩ := covers
  rw [hoist] at held
  have first : Covers final analyzer.toStatic fun analyzer =>
      analyzer.located node.span fun analyzer =>
        analyzer.inContext (statementLabel i) fun analyzer =>
          analyzer.hoistStatement (i :: point) node :=
    ⟨analyzer, rfl, (hoist_moves _ _ _ _).gathers.trans held⟩
  have static := hoistStatement_static { analyzer with
    currentSpan := node.span.or analyzer.currentSpan
    context := analyzer.context ++ [statementLabel i] } (i :: point) node
  exact ⟨first.located.inContext,
    ⟨analyzer.located node.span fun analyzer =>
      analyzer.inContext (statementLabel i) fun analyzer =>
        analyzer.hoistStatement (i :: point) node, static, held⟩⟩

theorem covers_hoistStatement {node : Stmt} {name : String}
    {parameters : List Parameter} {returnAnnotated : Option TypeAnnotation}
    {body : Stmt}
    (shape : node.unspanned = .function name parameters returnAnnotated body)
    (covers : Covers final static fun analyzer =>
      analyzer.hoistStatement point node) :
    Covers final static fun analyzer => analyzer.declare point name
      (functionSymbol static parameters returnAnnotated) := by
  obtain ⟨analyzer, rfl, held⟩ := covers
  have still := (standing.resolveParameters analyzer point parameters).trans
    (standing.resolveAnnotated _ point returnAnnotated)
  have declares : analyzer.hoistStatement point node =
      ((resolveParameters point parameters analyzer).resolveAnnotated point
        returnAnnotated).declare point name
        (functionSymbol analyzer.toStatic parameters returnAnnotated) := by
    rw [← still.static]
    simp [hoistStatement, shape]
  refine ⟨_, still.static, ?_⟩
  simp only [declares] at held
  exact held

end Declarations

section Statements

theorem covers_statements {list : List Stmt}
    (covers : Covers final static (statements point list)) :
    Covers final static (hoist point 0 list) ∧
      Covers final (static.hoisted list) (listed point 0 list) := by
  obtain ⟨analyzer, rfl, held⟩ := covers
  exact ⟨⟨analyzer, rfl, (listed_moves _ _ _ _).gathers.trans held⟩,
    ⟨_, hoist_static analyzer point 0 list, held⟩⟩

theorem covers_listed {i : Nat} {node : Stmt} {rest : List Stmt}
    (covers : Covers final static (listed point i (node :: rest))) :
    Covers final static (statement .listed (i :: point) node) ∧
      Covers final (static.passed node) (listed point (i + 1) rest) := by
  obtain ⟨analyzer, rfl, held⟩ := covers
  rw [listed] at held
  have first : Covers final analyzer.toStatic fun analyzer =>
      analyzer.inContext (statementLabel i)
        (statement .listed (i :: point) node) :=
    ⟨analyzer, rfl, (listed_moves _ _ _ _).gathers.trans held⟩
  have walked := statement_walks .listed (i :: point) node { analyzer with
    context := analyzer.context ++ [statementLabel i] }
  exact ⟨first.inContext, ⟨analyzer.inContext (statementLabel i)
    (statement .listed (i :: point) node), walked.listed rfl, held⟩⟩

theorem covers_locatedStatement {mode : Mode} {span : Span} {inner : Stmt}
    (covers : Covers final static
      (statement mode point (.located span inner))) :
    Covers final static (statement mode point inner) := by
  obtain ⟨analyzer, same, held⟩ := covers
  rw [statement] at held
  have opened : Covers final static fun analyzer =>
      analyzer.located (some span) (statement mode point inner) :=
    ⟨analyzer, same, held⟩
  exact opened.located

/-- A statement is covered under its locations. -/
theorem covers_unspanned {mode : Mode} (node : Stmt)
    (covers : Covers final static (statement mode point node)) :
    Covers final static (statement mode point node.unspanned) := by
  induction node using Stmt.unspanned.induct with
  | case1 span inner induction =>
      exact induction (covers_locatedStatement covers)
  | case2 node bare =>
      rw [Stmt.unspanned]
      · exact covers
      · exact bare

/-- A body is a block or a list of one statement. -/
theorem covers_single {body : Stmt} (bare : body.unspanned = body)
    (single : ∀ list, body ≠ .block list)
    (covers : Covers final static (statement .body point body)) :
    Covers final static (statements point [body]) := by
  obtain ⟨analyzer, same, held⟩ := covers
  refine ⟨analyzer, same, ?_⟩
  rw [← bodyInCurrentScope_single point body analyzer bare single]
  exact held

theorem covers_bodyBlock {list : List Stmt}
    (covers : Covers final static (statement .body point (.block list))) :
    Covers final static (statements point list) := by
  obtain ⟨analyzer, same, held⟩ := covers
  rw [statement] at held
  exact ⟨analyzer, same, held⟩

theorem covers_block {list : List Stmt}
    (covers : Covers final static
      (statement .listed point (.block list))) :
    Visited final static point (.statement (.block list)) ∧
      Covers final
        { static with scopes := ⟨1 :: point, []⟩ :: static.scopes }
        (statements (1 :: point) list) := by
  obtain ⟨analyzer, rfl, held⟩ := covers
  rw [statement] at held
  have inside : ∀ analyzer : Analyzer, analyzer.Still
      (analyzer.inContext "block" fun analyzer =>
        analyzer.inScope (1 :: point) (statements (1 :: point) list)) :=
    fun analyzer => inContext_still fun analyzer =>
      inScope_still analyzer _ fun analyzer =>
        (hoist_moves analyzer _ 0 list).trans (listed_moves _ _ _ _)
  have opened : Covers final analyzer.toStatic fun analyzer =>
      analyzer.inContext "block" fun analyzer =>
        analyzer.inScope (1 :: point) (statements (1 :: point) list) :=
    (visit_still _ _ _).covers held
  exact ⟨visited_of ((inside _).gathers.trans held),
    opened.inContext.inScope⟩

theorem covers_let {name : String} {annotated : Option TypeAnnotation}
    {value : Expr}
    (covers : Covers final static
      (statement .listed point (.let name annotated value))) :
    Visited final static point (.statement (.let name annotated value)) ∧
      Covers final static (expression (0 :: point) value) ∧
      Covers final static fun analyzer => analyzer.declare point name
        (.variable (annotationType static annotated)) := by
  obtain ⟨analyzer, rfl, held⟩ := covers
  rw [statement] at held
  simp only [reached] at held
  have entered := visit_still analyzer point
    (.statement (.let name annotated value))
  have first := entered.trans (standing.expression (0 :: point) value _)
  have second := first.trans (standing.resolveAnnotated _ point annotated)
  have types := second.static
  rw [types] at held
  have third := second.trans (checkExpected_still _ point value
    (annotationType analyzer.toStatic annotated))
  have checked := (declare_moves _ _ _ _).gathers.trans held
  have walked := ((standing.resolveAnnotated _ _ _).trans
    (checkExpected_still _ _ _ _)).gathers.trans checked
  exact ⟨visited_of ((standing.expression _ _ _).gathers.trans walked),
    entered.covers walked, third.covers held⟩

theorem covers_expressionStatement {value : Expr}
    (covers : Covers final static
      (statement .listed point (.expression value))) :
    Visited final static point (.statement (.expression value)) ∧
      Covers final static (expression (0 :: point) value) := by
  obtain ⟨analyzer, rfl, held⟩ := covers
  rw [statement] at held
  simp only [reached] at held
  exact ⟨visited_of ((standing.expression _ _ _).gathers.trans held),
    (visit_still _ _ _).covers held⟩

/-- The analysis of a function's parameters and of its body. -/
def functionAnalysis (point : Point) (parameters : List Parameter)
    (returnAnnotated : Option TypeAnnotation) (body : Stmt)
    (analyzer : Analyzer) : Analyzer :=
  analyzer.inScope point fun analyzer =>
    analyzer.inFunction returnAnnotated fun analyzer =>
      statement .body (0 :: point) body
        (declareParameters point parameters analyzer)

theorem covers_function {name : String} {parameters : List Parameter}
    {returnAnnotated : Option TypeAnnotation} {body : Stmt}
    (covers : Covers final static (statement .listed point
      (.function name parameters returnAnnotated body))) :
    Visited final static point
        (.statement (.function name parameters returnAnnotated body)) ∧
      Covers final static
        (functionAnalysis point parameters returnAnnotated body) := by
  obtain ⟨analyzer, rfl, held⟩ := covers
  rw [statement] at held
  simp only [reached] at held
  have opened : Covers final analyzer.toStatic fun analyzer =>
      analyzer.inContext s!"function '{name}'"
        (functionAnalysis point parameters returnAnnotated body) :=
    (visit_still _ _ _).covers held
  refine ⟨visited_of (Gathers.trans (Still.gathers ?_) held),
    opened.inContext⟩
  refine inContext_still fun analyzer => ?_
  refine inScope_still analyzer point fun analyzer => ?_
  refine inFunction_moves analyzer fun analyzer => ?_
  exact (declareParameters_moves analyzer point parameters).trans
    (statement_moves _ _ _ _)

theorem covers_return {value : Option Expr}
    (covers : Covers final static
      (statement .listed point (.return value))) :
    Visited final static point (.statement (.return value)) ∧
      Covers final static (optional (0 :: point) value) := by
  obtain ⟨analyzer, rfl, held⟩ := covers
  rw [statement] at held
  simp only [reached] at held
  have checked := (checkExpected_still _ _ _ _).gathers.trans held
  exact ⟨visited_of (((standing.checkReturn _ _).trans
      (standing.optional _ _ _)).gathers.trans checked),
    ((visit_still _ _ _).trans (standing.checkReturn _ _)).covers checked⟩

/-- The analysis of a branch, a loop body or an arm in a scope of its own. -/
theorem branch_still (label : String) (point : Point) (body : Stmt)
    (analyzer : Analyzer) :
    analyzer.Still (analyzer.inContext label fun analyzer =>
      analyzer.inScope point (statement .body point body)) :=
  inContext_still fun analyzer => inScope_still analyzer point fun analyzer =>
    statement_moves .body point body analyzer

theorem covers_if {test : Expr} {thenBranch : Stmt}
    {elseBranch : Option Stmt}
    (covers : Covers final static
      (statement .listed point (.if test thenBranch elseBranch))) :
    Visited final static point
        (.statement (.if test thenBranch elseBranch)) ∧
      Covers final static (expression (0 :: point) test) ∧
      Covers final
        { static with scopes := ⟨1 :: point, []⟩ :: static.scopes }
        (statement .body (1 :: point) thenBranch) ∧
      Covers final static (otherwise point elseBranch) := by
  obtain ⟨analyzer, rfl, held⟩ := covers
  rw [statement] at held
  simp only [reached] at held
  have entered := visit_still analyzer point
    (.statement (.if test thenBranch elseBranch))
  have first := entered.trans (standing.expression (0 :: point) test _)
  have last := (otherwise_still _ _ _).gathers.trans held
  have chosen := (branch_still _ _ _ _).gathers.trans last
  have branch : Covers final analyzer.toStatic fun analyzer =>
      analyzer.inContext "if branch" fun analyzer =>
        analyzer.inScope (1 :: point)
          (statement .body (1 :: point) thenBranch) :=
    first.covers last
  exact ⟨visited_of ((standing.expression _ _ _).gathers.trans chosen),
    entered.covers chosen, branch.inContext.inScope,
    (first.trans (branch_still _ _ _ _)).covers held⟩

theorem covers_otherwise {branch : Stmt}
    (covers : Covers final static (otherwise point (some branch))) :
    Covers final
      { static with scopes := ⟨2 :: point, []⟩ :: static.scopes }
      (statement .body (2 :: point) branch) := by
  obtain ⟨analyzer, same, held⟩ := covers
  rw [otherwise] at held
  have opened : Covers final static fun analyzer =>
      analyzer.inContext "else branch" fun analyzer =>
        analyzer.inScope (2 :: point)
          (statement .body (2 :: point) branch) :=
    ⟨analyzer, same, held⟩
  exact opened.inContext.inScope

theorem covers_while {test : Expr} {body : Stmt}
    (covers : Covers final static
      (statement .listed point (.while test body))) :
    Visited final static point (.statement (.while test body)) ∧
      Covers final static (expression (0 :: point) test) ∧
      Covers final { static with
        loops := .serial :: static.loops
        scopes := ⟨1 :: point, []⟩ :: static.scopes }
        (statement .body (1 :: point) body) := by
  obtain ⟨analyzer, rfl, held⟩ := covers
  rw [statement] at held
  simp only [reached] at held
  have entered := visit_still analyzer point
    (.statement (.while test body))
  have first := entered.trans (standing.expression (0 :: point) test _)
  have loop : Covers final analyzer.toStatic fun analyzer =>
      analyzer.inLoop .serial fun analyzer =>
        analyzer.inContext "while body" fun analyzer =>
          analyzer.inScope (1 :: point)
            (statement .body (1 :: point) body) :=
    first.covers held
  have walked := (inLoop_still fun analyzer =>
    branch_still "while body" (1 :: point) body analyzer).gathers.trans held
  exact ⟨visited_of ((standing.expression _ _ _).gathers.trans walked),
    entered.covers walked, loop.inLoop.inContext.inScope⟩

/-- The analysis of the body of a loop over the elements of an array. -/
def iterationAnalysis (point : Point) (variableName : String) (body : Stmt)
    (analyzer : Analyzer) : Analyzer :=
  statement .body (1 :: point) body
    (analyzer.declare (1 :: point) variableName .loopVariable)

theorem iterationAnalysis_still (point : Point) (variableName : String)
    (body : Stmt) (analyzer : Analyzer) :
    analyzer.Still (analyzer.inScope (1 :: point)
      (iterationAnalysis point variableName body)) :=
  inScope_still analyzer (1 :: point) fun analyzer =>
    (declare_moves analyzer _ _ _).trans (statement_moves _ _ _ _)

/-- The variable of a loop is declared before its body. -/
theorem covers_iteration {variableName : String} {body : Stmt}
    (single : ¬ Reports final .duplicateDeclaration)
    (covers : Covers final static
      (iterationAnalysis point variableName body)) :
    (∃ scopes, static.scopes.declare variableName .loopVariable =
        some scopes) ∧
      Covers final (static.declared variableName .loopVariable)
        (statement .body (1 :: point) body) := by
  have opened : Covers final static fun analyzer =>
      statement .body (1 :: point) body
        (analyzer.declare (1 :: point) variableName .loopVariable) := covers
  obtain ⟨declaration, inside⟩ := covers_declared
    (fun analyzer => (statement_moves _ _ _ analyzer).gathers) opened
  exact ⟨covers_declare single declaration, inside⟩

theorem covers_for {variableName : String} {iterable : Expr} {body : Stmt}
    (covers : Covers final static
      (statement .listed point (.for variableName iterable body))) :
    Visited final static point
        (.statement (.for variableName iterable body)) ∧
      Covers final static (expression (0 :: point) iterable) ∧
      Covers final { static with
        loops := .serial :: static.loops
        scopes := ⟨1 :: point, []⟩ :: static.scopes }
        (iterationAnalysis point variableName body) := by
  obtain ⟨analyzer, rfl, held⟩ := covers
  rw [statement] at held
  simp only [reached] at held
  have entered := visit_still analyzer point
    (.statement (.for variableName iterable body))
  have first := entered.trans (standing.expression (0 :: point) iterable _)
  have loop : Covers final analyzer.toStatic fun analyzer =>
      analyzer.inContext s!"for '{variableName}'" fun analyzer =>
        analyzer.inLoop .serial fun analyzer =>
          analyzer.inScope (1 :: point)
            (iterationAnalysis point variableName body) :=
    first.covers held
  have walked := (inContext_still fun analyzer => inLoop_still fun analyzer =>
    iterationAnalysis_still point variableName body analyzer).gathers.trans
      held
  exact ⟨visited_of ((standing.expression _ _ _).gathers.trans walked),
    entered.covers walked, loop.inContext.inLoop.inScope⟩

theorem covers_parallel {variableName : String} {iterable : Expr}
    {body : Stmt}
    (covers : Covers final static
      (statement .listed point (.parallel variableName iterable body))) :
    Visited final static point
        (.statement (.parallel variableName iterable body)) ∧
      Covers final static (expression (0 :: point) iterable) ∧
      Covers final { static with
        loops := .parallel :: static.loops
        parallelBoundaries := (static.scopes.depth, static.functionDepth) ::
          static.parallelBoundaries
        scopes := ⟨1 :: point, []⟩ :: static.scopes }
        (iterationAnalysis point variableName body) := by
  obtain ⟨analyzer, rfl, held⟩ := covers
  rw [statement] at held
  simp only [reached] at held
  have entered := visit_still analyzer point
    (.statement (.parallel variableName iterable body))
  have first := entered.trans (standing.expression (0 :: point) iterable _)
  have loop : Covers final analyzer.toStatic fun analyzer =>
      analyzer.inContext s!"parallel '{variableName}'" fun analyzer =>
        analyzer.inParallel fun analyzer =>
          analyzer.inScope (1 :: point)
            (iterationAnalysis point variableName body) :=
    first.covers held
  have walked := (inContext_still fun analyzer =>
    inParallel_still fun analyzer =>
      iterationAnalysis_still point variableName body analyzer).gathers.trans
        held
  exact ⟨visited_of ((standing.expression _ _ _).gathers.trans walked),
    entered.covers walked, loop.inContext.inParallel.inScope⟩

theorem covers_match {value : Expr} {arms : List (Pattern × Stmt)}
    (covers : Covers final static
      (statement .listed point (.match value arms))) :
    Visited final static point (.statement (.match value arms)) ∧
      Covers final static (expression (0 :: point) value) ∧
      Covers final static (matchArms point 1 arms) := by
  obtain ⟨analyzer, rfl, held⟩ := covers
  rw [statement] at held
  simp only [reached] at held
  have entered := visit_still analyzer point
    (.statement (.match value arms))
  have first := entered.trans (standing.expression (0 :: point) value _)
  have walked := (matchArms_still _ _ _ _).gathers.trans held
  exact ⟨visited_of ((standing.expression _ _ _).gathers.trans walked),
    entered.covers walked, first.covers held⟩

theorem covers_matchArms {i : Nat} {pattern : Pattern} {body : Stmt}
    {rest : List (Pattern × Stmt)}
    (covers : Covers final static
      (matchArms point i ((pattern, body) :: rest))) :
    Covers final
        { static with scopes := ⟨i :: point, []⟩ :: static.scopes }
        (statement .body (i :: point) body) ∧
      Covers final static (matchArms point (i + 1) rest) := by
  obtain ⟨analyzer, rfl, held⟩ := covers
  rw [matchArms] at held
  have arm : Covers final analyzer.toStatic fun analyzer =>
      analyzer.inContext s!"match arm {i}" fun analyzer =>
        analyzer.inScope (i :: point) (statement .body (i :: point) body) :=
    ⟨analyzer, rfl, (matchArms_still _ _ _ _).gathers.trans held⟩
  exact ⟨arm.inContext.inScope,
    (branch_still _ _ _ _).covers held⟩

theorem covers_type {name : String} {fields : List TypeField}
    (covers : Covers final static
      (statement .listed point (.type name fields))) :
    Visited final static point (.statement (.type name fields)) ∧
      Covers final static fun analyzer =>
        analyzer.typeDeclaration point name fields := by
  obtain ⟨analyzer, rfl, held⟩ := covers
  rw [statement] at held
  simp only [reached] at held
  exact ⟨visited_of ((standing.typeDeclaration _ _ _ _).gathers.trans held),
    (visit_still _ _ _).covers held⟩

theorem covers_break
    (covers : Covers final static (statement .listed point .break)) :
    Visited final static point (.statement .break) := by
  obtain ⟨analyzer, rfl, held⟩ := covers
  rw [statement] at held
  simp only [reached] at held
  exact visited_of ((standing.checkBreak _ _).gathers.trans held)

theorem covers_continue
    (covers : Covers final static (statement .listed point .continue)) :
    Visited final static point (.statement .continue) := by
  obtain ⟨analyzer, rfl, held⟩ := covers
  rw [statement] at held
  simp only [reached] at held
  exact visited_of ((standing.checkContinue _ _).gathers.trans held)

/-- A statement under its locations is visited. -/
theorem covers_visitedStatement {node : Stmt}
    (bare : ∀ span inner, node ≠ .located span inner)
    (covers : Covers final static (statement .listed point node)) :
    Visited final static point (.statement node) := by
  cases node with
  | located span inner => exact absurd rfl (bare span inner)
  | type name fields => exact (covers_type covers).1
  | «break» => exact covers_break covers
  | «continue» => exact covers_continue covers
  | «let» name annotated value => exact (covers_let covers).1
  | expression value => exact (covers_expressionStatement covers).1
  | block list => exact (covers_block covers).1
  | function name parameters returnAnnotated body =>
      exact (covers_function covers).1
  | «return» value => exact (covers_return covers).1
  | «if» test thenBranch elseBranch => exact (covers_if covers).1
  | «while» test body => exact (covers_while covers).1
  | «for» variableName iterable body => exact (covers_for covers).1
  | parallel variableName iterable body => exact (covers_parallel covers).1
  | «match» value arms => exact (covers_match covers).1

end Statements

end Analyzer

end NetLang
