import NetLang.Semantic.Covered

/-!
# Visits of an analysis

The walk visits every node once, at a point of its own, and what it collects
afterwards covers the analysis of each node that it has visited.
-/

namespace NetLang

namespace Analyzer

/-- The analyzer has collected the analysis of a visited node. -/
def CoversVisit (final : Analyzer) (visit : Visit) : Prop :=
  match visit.node with
  | .expression node =>
      Covers final visit.static (expression visit.point node)
  | .statement node =>
      Covers final visit.static (statement .listed visit.point node)

theorem Covers.mono {before after : Analyzer} {static : Static}
    {analysis : Analyzer → Analyzer} (covers : Covers before static analysis)
    (gathers : before.Gathers after) : Covers after static analysis := by
  obtain ⟨analyzer, same, held⟩ := covers
  exact ⟨analyzer, same, held.trans gathers⟩

theorem CoversVisit.mono {before after : Analyzer} {visit : Visit}
    (covers : before.CoversVisit visit) (gathers : before.Gathers after) :
    after.CoversVisit visit := by
  obtain ⟨point, node, static⟩ := visit
  cases node with
  | expression node => exact Covers.mono covers gathers
  | statement node => exact Covers.mono covers gathers

/-- An analysis visits new points of a region, each of them once, and covers
what it visits. -/
def Adds (region : Point → Prop) (before after : Analyzer) : Prop :=
  ∃ added, after.visits = before.visits ++ added ∧
    (added.map Visit.point).Nodup ∧
    ∀ visit ∈ added, region visit.point ∧ after.CoversVisit visit

/-- A point and the points below it. -/
def Below (point : Point) (other : Point) : Prop :=
  point <:+ other

/-- The points below one of the children from the given one on. -/
def Children (point : Point) (i : Nat) (other : Point) : Prop :=
  ∃ j, i ≤ j ∧ (j :: point) <:+ other

theorem below_child {point other : Point} {i : Nat}
    (below : Below (i :: point) other) : Children point i other :=
  ⟨i, le_rfl, below⟩

theorem children_below {point other : Point} {i : Nat}
    (children : Children point i other) : Below point other := by
  obtain ⟨j, _, below⟩ := children
  exact (List.suffix_cons j point).trans below

theorem child_below {point other : Point} {i : Nat}
    (below : Below (i :: point) other) : Below point other :=
  (List.suffix_cons i point).trans below

theorem Children.later {point other : Point} {i j : Nat}
    (children : Children point j other) (less : i ≤ j) :
    Children point i other := by
  obtain ⟨k, more, below⟩ := children
  exact ⟨k, less.trans more, below⟩

/-- Two children have no point in common. -/
theorem child_unique {point other : Point} {i j : Nat}
    (first : (i :: point) <:+ other) (second : (j :: point) <:+ other) :
    i = j := by
  have inside := List.suffix_of_suffix_length_le first second (by simp)
  have same := inside.eq_of_length (by simp)
  exact (List.cons.inj same).1

theorem child_before {point other : Point} {i j : Nat} (less : i < j)
    (first : Below (i :: point) other) :
    ¬ Children point j other := by
  rintro ⟨k, more, second⟩
  have same := child_unique first second
  omega

theorem not_children_self {point : Point} {i : Nat} :
    ¬ Children point i point := by
  rintro ⟨j, _, below⟩
  have length := below.length_le
  simp at length

section Rules

variable {region other : Point → Prop} {first second third : Analyzer}

theorem Adds.mono (adds : Adds region first second)
    (wider : ∀ point, region point → other point) :
    Adds other first second := by
  obtain ⟨added, visits, distinct, each⟩ := adds
  exact ⟨added, visits, distinct, fun visit member =>
    ⟨wider _ (each visit member).1, (each visit member).2⟩⟩

theorem Adds.trans {whole : Point → Prop} (before : Adds region first second)
    (after : Adds other second third) (gathers : second.Gathers third)
    (apart : ∀ point, region point → ¬ other point)
    (left : ∀ point, region point → whole point)
    (right : ∀ point, other point → whole point) :
    Adds whole first third := by
  obtain ⟨added, visits, distinct, each⟩ := before
  obtain ⟨more, visits', distinct', each'⟩ := after
  refine ⟨added ++ more, by rw [visits', visits, List.append_assoc], ?_, ?_⟩
  · rw [List.map_append, List.nodup_append]
    refine ⟨distinct, distinct', ?_⟩
    intro point inFirst point' inSecond same
    obtain ⟨visit, member, rfl⟩ := List.mem_map.mp inFirst
    obtain ⟨visit', member', rfl⟩ := List.mem_map.mp inSecond
    exact apart _ (each visit member).1 (same ▸ (each' visit' member').1)
  · intro visit member
    rcases List.mem_append.mp member with here | later
    · exact ⟨left _ (each visit here).1, (each visit here).2.mono gathers⟩
    · exact ⟨right _ (each' visit later).1, (each' visit later).2⟩

/-- An analysis without visits. -/
structure Silent (before after : Analyzer) : Prop where
  gathers : before.Gathers after
  visits : after.visits = before.visits

theorem Silent.refl (analyzer : Analyzer) : analyzer.Silent analyzer :=
  ⟨.refl _, rfl⟩

theorem Silent.trans (before : first.Silent second)
    (after : second.Silent third) : first.Silent third :=
  ⟨before.gathers.trans after.gathers, after.visits.trans before.visits⟩

theorem Silent.adds (silent : first.Silent second) :
    Adds region first second :=
  ⟨[], by simp [silent.visits], by simp, by simp⟩

theorem Adds.before (adds : Adds region second third)
    (silent : first.Silent second) : Adds region first third := by
  obtain ⟨added, visits, rest⟩ := adds
  exact ⟨added, by rw [visits, silent.visits], rest⟩

theorem Adds.after (adds : Adds region first second)
    (silent : second.Silent third) : Adds region first third := by
  obtain ⟨added, visits, distinct, each⟩ := adds
  exact ⟨added, by rw [silent.visits, visits], distinct,
    fun visit member => ⟨(each visit member).1,
      (each visit member).2.mono silent.gathers⟩⟩

/-- Only the visits and the reports matter. -/
theorem Adds.wrap {before after : Analyzer}
    (adds : Adds region first second)
    (entered : first.visits = before.visits)
    (visits : after.visits = second.visits)
    (reports : after.reports = second.reports) :
    Adds region before after := by
  obtain ⟨added, grown, distinct, each⟩ := adds
  have gathers : second.Gathers after :=
    ⟨by rw [reports]; exact List.Subset.refl _,
      by rw [visits]; exact List.Subset.refl _⟩
  exact ⟨added, by rw [visits, grown, entered], distinct,
    fun visit member => ⟨(each visit member).1,
      (each visit member).2.mono gathers⟩⟩

variable {point : Point} {i j : Nat}

/-- A child, and the later ones. -/
theorem adds_child (child : Adds (Below (i :: point)) first second)
    (rest : Adds (Children point j) second third) (less : i < j)
    (gathers : second.Gathers third) :
    Adds (Children point i) first third :=
  child.trans rest gathers (fun _ => child_before less)
    (fun _ => below_child) fun _ children => children.later less.le

theorem adds_last (child : Adds (Below (i :: point)) first second)
    (less : j ≤ i) : Adds (Children point j) first second :=
  child.mono fun _ below => (below_child below).later less

/-- A node is visited before its children. -/
theorem adds_visit {analyzer after : Analyzer} {node : Node}
    (children : Adds (Children point 0) (analyzer.visit point node) after)
    (covers : after.CoversVisit ⟨point, node, analyzer.toStatic⟩) :
    Adds (Below point) analyzer after := by
  obtain ⟨added, visits, distinct, each⟩ := children
  refine ⟨⟨point, node, analyzer.toStatic⟩ :: added, ?_, ?_, ?_⟩
  · rw [visits]
    simp [visit]
  · rw [List.map_cons, List.nodup_cons]
    refine ⟨?_, distinct⟩
    intro member
    obtain ⟨visit, inside, same⟩ := List.mem_map.mp member
    exact not_children_self (same ▸ (each visit inside).1)
  · intro visit member
    rcases List.mem_cons.mp member with rfl | later
    · exact ⟨List.suffix_refl _, covers⟩
    · exact ⟨children_below (each visit later).1, (each visit later).2⟩

theorem adds_expression {analyzer : Analyzer} {node : Expr}
    (children : Adds (Children point 0)
      (analyzer.visit point (.expression node))
      (expression point node analyzer)) :
    Adds (Below point) analyzer (expression point node analyzer) :=
  adds_visit children ⟨analyzer, rfl, .refl _⟩

end Rules

section Wrappers

variable {region : Point → Prop} {analysis : Analyzer → Analyzer}
  (adds : ∀ analyzer : Analyzer, Adds region analyzer (analysis analyzer))
  {analyzer : Analyzer}
include adds

theorem located_adds {span : Option Span} :
    Adds region analyzer (analyzer.located span analysis) :=
  (adds { analyzer with
    currentSpan := span.or analyzer.currentSpan }).wrap rfl rfl rfl

theorem inContext_adds {label : String} :
    Adds region analyzer (analyzer.inContext label analysis) :=
  (adds { analyzer with
    context := analyzer.context ++ [label] }).wrap rfl rfl rfl

theorem inScope_adds {point : Point} :
    Adds region analyzer (analyzer.inScope point analysis) :=
  (adds { analyzer with
    scopes := ⟨point, []⟩ :: analyzer.scopes }).wrap rfl rfl rfl

theorem inFunction_adds {returnAnnotated : Option TypeAnnotation} :
    Adds region analyzer (analyzer.inFunction returnAnnotated analysis) :=
  (adds { analyzer with
    functionDepth := analyzer.functionDepth + 1
    loops := []
    returnType := annotationType analyzer.toStatic
      returnAnnotated }).wrap rfl rfl rfl

theorem inLoop_adds {kind : LoopKind} :
    Adds region analyzer (analyzer.inLoop kind analysis) :=
  (adds { analyzer with
    loops := kind :: analyzer.loops }).wrap rfl rfl rfl

theorem inParallel_adds :
    Adds region analyzer (analyzer.inParallel analysis) :=
  (adds { analyzer with
    loops := .parallel :: analyzer.loops
    parallelBoundaries := (analyzer.scopes.depth, analyzer.functionDepth) ::
      analyzer.parallelBoundaries }).wrap rfl rfl rfl

end Wrappers

section Checks

variable (analyzer : Analyzer) (point : Point)

theorem resolve_silent (name : String) :
    analyzer.Silent (analyzer.resolve point name) := by
  refine ⟨(standing.resolve _ _ _).gathers, ?_⟩
  unfold resolve
  split <;> rfl

theorem resolveType_silent (annotated : TypeAnnotation) :
    analyzer.Silent (analyzer.resolveType point annotated) := by
  refine ⟨(standing.resolveType _ _ _).gathers, ?_⟩
  unfold resolveType
  split <;> rfl

theorem resolveAnnotated_silent (annotated : Option TypeAnnotation) :
    analyzer.Silent (analyzer.resolveAnnotated point annotated) := by
  cases annotated with
  | some annotated => exact resolveType_silent analyzer point annotated
  | none => exact .refl _

theorem checkExpected_silent (node : Expr)
    (expected : Option ResolvedType) :
    analyzer.Silent (analyzer.checkExpected point node expected) := by
  refine ⟨(checkExpected_still _ _ _ _).gathers, ?_⟩
  unfold checkExpected
  split
  · unfold checkType
    extract_lets known asked
    split
    · rfl
    · split <;> rfl
  · rfl

theorem reading_silent {α : Type} (read : Read α) :
    analyzer.Silent (analyzer.reading read) :=
  ⟨(reading_still analyzer read).gathers, rfl⟩

theorem checkMember_silent (object : Expr) (name : String) :
    analyzer.Silent (analyzer.checkMember point object name) := by
  refine ⟨(standing.checkMember _ _ _ _).gathers, ?_⟩
  unfold checkMember
  extract_lets lacking asked
  split <;> rfl

theorem typeFields_silent (name : String) (fields : List TypeField)
    (seen : List String) :
    analyzer.Silent (typeFields point name fields seen analyzer) := by
  induction fields generalizing seen analyzer with
  | nil => exact .refl _
  | cons field rest induction =>
      rw [typeFields]
      refine Silent.trans ?_ (induction _ _)
      refine Silent.trans ?_ (resolveType_silent _ _ _)
      split
      · exact ⟨(report_still _ _ _ _).gathers, rfl⟩
      · exact .refl _

theorem typeDeclaration_silent (name : String) (fields : List TypeField) :
    analyzer.Silent (analyzer.typeDeclaration point name fields) := by
  refine ⟨(standing.typeDeclaration _ _ _ _).gathers, ?_⟩
  unfold typeDeclaration
  extract_lets top reserved declared filled cycle searched
  have first : top.visits = analyzer.visits := by
    unfold top
    split <;> rfl
  have second : reserved.visits = top.visits := by
    unfold reserved
    split <;> rfl
  have third : declared.visits = reserved.visits := by
    unfold declared
    split <;> rfl
  have fourth : filled.visits = declared.visits :=
    (typeFields_silent _ _ _ _ _).visits
  have whole := ((fourth.trans third).trans second).trans first
  split
  · exact whole
  · exact whole

theorem constructorType_silent (name : String)
    (definition : Option (List TypeField)) :
    analyzer.Silent (analyzer.constructorType point name definition) := by
  refine ⟨(standing.constructorType _ _ _ _).gathers, ?_⟩
  unfold constructorType
  split <;> rfl

theorem constructorField_silent (name : String)
    (definition : Option (List TypeField)) (seen : List String)
    (key : String) (value : Expr) :
    analyzer.Silent
      (analyzer.constructorField point name definition seen key value) := by
  refine ⟨(standing.constructorField _ _ _ _ _ _ _).gathers, ?_⟩
  unfold constructorField
  extract_lets repeated
  have first : repeated.visits = analyzer.visits := by
    unfold repeated
    split <;> rfl
  split
  · exact first
  · split
    · exact (checkExpected_silent _ _ _ _).visits.trans first
    · exact first

theorem missingFields_silent (name : String) (given : List String)
    (fields : List TypeField) :
    analyzer.Silent (missingFields point name given fields analyzer) := by
  induction fields generalizing analyzer with
  | nil => exact .refl _
  | cons field rest induction =>
      rw [missingFields]
      refine Silent.trans ?_ (induction _)
      split
      · exact .refl _
      · exact ⟨(report_still _ _ _ _).gathers, rfl⟩

theorem checkMutable_silent (name : String) :
    analyzer.Silent (analyzer.checkMutable point name) := by
  refine ⟨(standing.checkMutable _ _ _).gathers, ?_⟩
  unfold checkMutable
  split <;> rfl

theorem checkTarget_silent (target : Expr) :
    analyzer.Silent (analyzer.checkTarget point target) := by
  refine ⟨(standing.checkTarget _ _ _).gathers, ?_⟩
  unfold checkTarget
  split <;> rfl

theorem checkParallelAssignment_silent (target : Expr) :
    analyzer.Silent (analyzer.checkParallelAssignment point target) := by
  refine ⟨(standing.checkParallelAssignment _ _ _).gathers, ?_⟩
  unfold checkParallelAssignment
  split <;> rfl

theorem checkArity_silent (callee : Expr) (given : Nat) :
    analyzer.Silent (analyzer.checkArity point callee given) := by
  refine ⟨(standing.checkArity _ _ _ _).gathers, ?_⟩
  unfold checkArity
  split
  · split <;> rfl
  · rfl

theorem checkArguments_silent (arguments : List Expr)
    (parameters : List (Option ResolvedType)) :
    analyzer.Silent (checkArguments point arguments parameters analyzer) := by
  induction arguments generalizing parameters analyzer with
  | nil =>
      unfold checkArguments
      exact .refl _
  | cons argument rest induction =>
      cases parameters with
      | nil =>
          unfold checkArguments
          exact .refl _
      | cons expected parameters =>
          unfold checkArguments
          exact (checkExpected_silent _ _ _ _).trans (induction _ _)

theorem resolveParameters_silent (parameters : List Parameter) :
    analyzer.Silent (resolveParameters point parameters analyzer) := by
  induction parameters generalizing analyzer with
  | nil => exact .refl _
  | cons parameter rest induction =>
      exact (resolveAnnotated_silent analyzer point _).trans (induction _)

theorem checkBreak_silent :
    analyzer.Silent (analyzer.checkBreak point) := by
  refine ⟨(standing.checkBreak _ _).gathers, ?_⟩
  unfold checkBreak
  split <;> rfl

theorem checkContinue_silent :
    analyzer.Silent (analyzer.checkContinue point) := by
  refine ⟨(standing.checkContinue _ _).gathers, ?_⟩
  unfold checkContinue
  split <;> rfl

theorem checkReturn_silent :
    analyzer.Silent (analyzer.checkReturn point) := by
  refine ⟨(standing.checkReturn _ _).gathers, ?_⟩
  unfold checkReturn
  split
  · rfl
  · split <;> rfl

theorem declare_silent (name : String) (symbol : Symbol) :
    analyzer.Silent (analyzer.declare point name symbol) := by
  refine ⟨(declare_moves _ _ _ _).gathers, ?_⟩
  unfold declare
  split <;> rfl

theorem declareParameters_silent (parameters : List Parameter) :
    analyzer.Silent (declareParameters point parameters analyzer) := by
  induction parameters generalizing analyzer with
  | nil => exact .refl _
  | cons parameter rest induction =>
      exact (declare_silent _ _ _ _).trans (induction _)

theorem hoist_silent (i : Nat) (list : List Stmt) :
    analyzer.Silent (hoist point i list analyzer) := by
  induction list generalizing i analyzer with
  | nil => exact .refl _
  | cons node rest induction =>
      rw [hoist]
      refine Silent.trans ⟨(located_moves analyzer fun analyzer =>
        inContext_moves analyzer fun analyzer =>
          hoistStatement_moves analyzer _ node).gathers, ?_⟩ (induction _ _)
      have same : ∀ analyzer : Analyzer,
          (analyzer.hoistStatement (i :: point) node).visits =
            analyzer.visits := by
        intro analyzer
        unfold hoistStatement
        split
        · exact ((declare_silent _ _ _ _).visits.trans
            (resolveAnnotated_silent _ _ _).visits).trans
            (resolveParameters_silent _ _ _).visits
        · rfl
      exact same _

end Checks

section Expressions

mutual

theorem expression_adds (point : Point) :
    ∀ (node : Expr) (analyzer : Analyzer),
      Adds (Below point) analyzer (expression point node analyzer)
  | .located span inner => fun analyzer => by
      rw [expression]
      exact located_adds (expression_adds point inner)
  | .construct name fields => fun analyzer => by
      refine adds_expression ?_
      rw [expression]
      refine Adds.after ?_ (missingFields_silent _ _ _ _ _)
      exact (constructorFields_adds point name _ 0 fields [] _).before
        ((reading_silent _ _).trans (constructorType_silent _ _ _ _))
  | .connection _ address _ => fun analyzer => by
      refine adds_expression ?_
      rw [expression]
      exact adds_last (expression_adds _ address _) le_rfl
  | .send connection data destination => fun analyzer => by
      refine adds_expression ?_
      rw [expression]
      refine adds_child (expression_adds _ connection _) ?_ Nat.zero_lt_one
        ((standing.expression _ _ _).trans (standing.optional _ _ _)).gathers
      exact adds_child (expression_adds _ data _)
        (adds_last (optional_adds _ destination _) le_rfl) Nat.one_lt_two
        (standing.optional _ _ _).gathers
  | .receive connection => fun analyzer => by
      refine adds_expression ?_
      rw [expression]
      exact adds_last (expression_adds _ connection _) le_rfl
  | .request _ url config => fun analyzer => by
      refine adds_expression ?_
      rw [expression]
      exact adds_child (expression_adds _ url _)
        (adds_last (optional_adds _ config _) le_rfl) Nat.zero_lt_one
        (standing.optional _ _ _).gathers
  | .integer _ | .float _ | .string _ | .boolean _ | .null
  | .duration _ => fun analyzer => by
      refine adds_expression ?_
      rw [expression]
      exact (Silent.refl _).adds
  | .identifier name => fun analyzer => by
      refine adds_expression ?_
      rw [expression]
      exact (resolve_silent _ _ _).adds
  | .array values => fun analyzer => by
      refine adds_expression ?_
      rw [expression]
      exact expressions_adds point 0 values _
  | .object fields => fun analyzer => by
      refine adds_expression ?_
      rw [expression]
      exact fieldValues_adds point 0 fields _
  | .unary _ operand => fun analyzer => by
      refine adds_expression ?_
      rw [expression]
      exact adds_last (expression_adds _ operand _) le_rfl
  | .binary left _ right => fun analyzer => by
      refine adds_expression ?_
      rw [expression]
      exact adds_child (expression_adds _ left _)
        (adds_last (expression_adds _ right _) le_rfl) Nat.zero_lt_one
        (standing.expression _ _ _).gathers
  | .assignment target value => fun analyzer => by
      refine adds_expression ?_
      rw [expression]
      refine Adds.after (adds_child (j := 1)
        (located_adds fun analyzer => ?_)
        (adds_last (expression_adds _ value _) le_rfl) Nat.zero_lt_one
        (standing.expression _ _ _).gathers)
        ((reading_silent _ _).trans (checkExpected_silent _ _ _ _))
      refine Adds.after ?_ (checkParallelAssignment_silent _ _ _)
      split
      · exact ((resolve_silent _ _ _).trans
          (checkMutable_silent _ _ _)).adds
      · exact (expression_adds _ target _).before (checkTarget_silent _ _ _)
  | .call callee arguments => fun analyzer => by
      refine adds_expression ?_
      rw [expression]
      refine Adds.after ?_ (checkArguments_silent _ _ _ _)
      exact adds_child (expression_adds _ callee _)
        ((expressions_adds point 1 arguments _).before
          (checkArity_silent _ _ _ _)) Nat.zero_lt_one
        ((standing.checkArity _ _ _ _).trans
          (standing.expressions _ _ _ _)).gathers
  | .property object name => fun analyzer => by
      refine adds_expression ?_
      rw [expression]
      exact Adds.after (adds_last (expression_adds _ object _) le_rfl)
        (checkMember_silent _ _ _ _)
  | .index object subscript => fun analyzer => by
      refine adds_expression ?_
      rw [expression]
      have walked : Adds (Children point 0) (analyzer.visit point
          (.expression (.index object subscript)))
          (expression (1 :: point) subscript (expression (0 :: point) object
            (analyzer.visit point
              (.expression (.index object subscript))))) :=
        adds_child (expression_adds _ object _)
          (adds_last (expression_adds _ subscript _) le_rfl) Nat.zero_lt_one
          (standing.expression _ _ _).gathers
      split
      · exact walked.after (checkMember_silent _ _ _ _)
      · exact walked

theorem optional_adds (point : Point) :
    ∀ (node : Option Expr) (analyzer : Analyzer),
      Adds (Below point) analyzer (optional point node analyzer)
  | none => fun analyzer => by
      rw [optional]
      exact (Silent.refl _).adds
  | some node => fun analyzer => by
      rw [optional]
      exact expression_adds point node analyzer

theorem expressions_adds (point : Point) (i : Nat) :
    ∀ (values : List Expr) (analyzer : Analyzer),
      Adds (Children point i) analyzer (expressions point i values analyzer)
  | [] => fun analyzer => by
      rw [expressions]
      exact (Silent.refl _).adds
  | value :: rest => fun analyzer => by
      rw [expressions]
      exact adds_child (expression_adds _ value _)
        (expressions_adds point (i + 1) rest _) (Nat.lt_succ_self i)
        (standing.expressions _ _ _ _).gathers

theorem fieldValues_adds (point : Point) (i : Nat) :
    ∀ (fields : List (String × Expr)) (analyzer : Analyzer),
      Adds (Children point i) analyzer (fieldValues point i fields analyzer)
  | [] => fun analyzer => by
      rw [fieldValues]
      exact (Silent.refl _).adds
  | (_, value) :: rest => fun analyzer => by
      rw [fieldValues]
      exact adds_child (expression_adds _ value _)
        (fieldValues_adds point (i + 1) rest _) (Nat.lt_succ_self i)
        (standing.fieldValues _ _ _ _).gathers

theorem constructorFields_adds (point : Point) (name : String)
    (definition : Option (List TypeField)) (i : Nat) :
    ∀ (fields : List (String × Expr)) (seen : List String)
      (analyzer : Analyzer), Adds (Children point i) analyzer
        (constructorFields point name definition i fields seen analyzer)
  | [], seen => fun analyzer => by
      rw [constructorFields]
      exact (Silent.refl _).adds
  | (key, value) :: rest, seen => fun analyzer => by
      rw [constructorFields]
      exact adds_child (expression_adds _ value _)
        ((constructorFields_adds point name definition (i + 1) rest _
          _).before (constructorField_silent _ _ _ _ _ _ _))
        (Nat.lt_succ_self i)
        ((standing.constructorField _ _ _ _ _ _ _).trans
          (standing.constructorFields _ _ _ _ _ _ _)).gathers

end

end Expressions

section Statements

variable {analyzer : Analyzer} {point : Point}

theorem reached_adds {mode : Mode} {node : Stmt}
    {analysis : Point → Analyzer → Analyzer}
    (same : ∀ (point : Point) (analyzer : Analyzer),
      statement .listed point node analyzer =
        analysis point (analyzer.visit point (.statement node)))
    (adds : ∀ (point : Point) (analyzer : Analyzer),
      Adds (Children point 0) analyzer (analysis point analyzer)) :
    Adds (Below point) analyzer
      (reached mode point node analysis analyzer) := by
  have listed : ∀ (point : Point) (analyzer : Analyzer),
      Adds (Below point) analyzer
        (analysis point (analyzer.visit point (.statement node))) := by
    intro point analyzer
    refine adds_visit (adds point _) ⟨analyzer, rfl, ?_⟩
    rw [same]
    exact .refl _
  cases mode with
  | listed => exact listed point analyzer
  | body =>
      simp only [reached]
      refine Adds.before ?_ (hoist_silent analyzer point 0 [node])
      exact inContext_adds fun analyzer =>
        (listed (0 :: point) analyzer).mono fun _ => child_below

theorem branch_adds {i : Nat} {label : String} {body : Stmt}
    (adds : ∀ analyzer : Analyzer, Adds (Below (i :: point)) analyzer
      (statement .body (i :: point) body analyzer)) :
    Adds (Below (i :: point)) analyzer
      (analyzer.inContext label fun analyzer =>
        analyzer.inScope (i :: point) (statement .body (i :: point) body)) :=
  inContext_adds fun _ => inScope_adds adds

mutual

theorem statement_adds (mode : Mode) (point : Point) :
    ∀ (node : Stmt) (analyzer : Analyzer),
      Adds (Below point) analyzer (statement mode point node analyzer)
  | .located span inner => fun analyzer => by
      rw [statement]
      exact located_adds (statement_adds mode point inner)
  | .block list => fun analyzer => by
      have inside : ∀ point, ∀ analyzer : Analyzer,
          Adds (Children point 0) analyzer
            (NetLang.Analyzer.listed point 0 list
              (hoist point 0 list analyzer)) :=
        fun point analyzer => (listed_adds point 0 list _).before
          (hoist_silent analyzer point 0 list)
      cases mode with
      | listed =>
          have covers : CoversVisit
              (statement .listed point (.block list) analyzer)
              ⟨point, .statement (.block list), analyzer.toStatic⟩ :=
            ⟨analyzer, rfl, .refl _⟩
          refine adds_visit ?_ covers
          rw [statement]
          exact (inContext_adds fun _ => inScope_adds (inside _)).mono
            fun _ held => (below_child (children_below held)).later
              (Nat.zero_le 1)
      | body =>
          rw [statement]
          exact (inside point analyzer).mono fun _ => children_below
  | .type name fields => fun analyzer => by
      rw [statement]
      refine reached_adds (fun _ _ => by rw [statement]; rfl)
        fun point analyzer => ?_
      exact (typeDeclaration_silent _ _ _ _).adds
  | .break => fun analyzer => by
      rw [statement]
      refine reached_adds (fun _ _ => by rw [statement]; rfl)
        fun point analyzer => ?_
      exact (checkBreak_silent _ _).adds
  | .continue => fun analyzer => by
      rw [statement]
      refine reached_adds (fun _ _ => by rw [statement]; rfl)
        fun point analyzer => ?_
      exact (checkContinue_silent _ _).adds
  | .let name annotated value => fun analyzer => by
      rw [statement]
      refine reached_adds (fun _ _ => by rw [statement]; rfl)
        fun point analyzer => ?_
      refine Adds.after ?_ (declare_silent _ _ _ _)
      refine Adds.after ?_ (checkExpected_silent _ _ _ _)
      refine Adds.after ?_ (resolveAnnotated_silent _ _ _)
      exact adds_last (expression_adds _ value _) le_rfl
  | .expression value => fun analyzer => by
      rw [statement]
      refine reached_adds (fun _ _ => by rw [statement]; rfl)
        fun point analyzer => ?_
      exact adds_last (expression_adds _ value _) le_rfl
  | .function name parameters returnAnnotated body => fun analyzer => by
      rw [statement]
      refine reached_adds (fun _ _ => by rw [statement]; rfl)
        fun point analyzer => ?_
      refine inContext_adds fun _ => inScope_adds fun _ =>
        inFunction_adds fun analyzer => ?_
      exact (adds_last (statement_adds .body _ body _) le_rfl).before
        (declareParameters_silent _ _ _)
  | .return value => fun analyzer => by
      rw [statement]
      refine reached_adds (fun _ _ => by rw [statement]; rfl)
        fun point analyzer => ?_
      refine Adds.after ?_ (checkExpected_silent _ _ _ _)
      exact (adds_last (optional_adds _ value _) le_rfl).before
        (checkReturn_silent _ _)
  | .if test thenBranch elseBranch => fun analyzer => by
      rw [statement]
      refine reached_adds (fun _ _ => by rw [statement]; rfl)
        fun point analyzer => ?_
      refine adds_child (expression_adds _ test _) ?_ Nat.zero_lt_one
        ((branch_still _ _ _ _).trans (otherwise_still _ _ _)).gathers
      exact adds_child (branch_adds (statement_adds .body _ thenBranch))
        (adds_last (otherwise_adds point elseBranch _) le_rfl)
        Nat.one_lt_two (otherwise_still _ _ _).gathers
  | .while test body => fun analyzer => by
      rw [statement]
      refine reached_adds (fun _ _ => by rw [statement]; rfl)
        fun point analyzer => ?_
      refine adds_child (expression_adds _ test _)
        (adds_last (inLoop_adds fun _ =>
          branch_adds (statement_adds .body _ body)) le_rfl)
        Nat.zero_lt_one (inLoop_still fun analyzer =>
          branch_still _ _ _ analyzer).gathers
  | .for variableName iterable body => fun analyzer => by
      rw [statement]
      refine reached_adds (fun _ _ => by rw [statement]; rfl)
        fun point analyzer => ?_
      refine adds_child (expression_adds _ iterable _)
        (adds_last (inContext_adds fun _ => inLoop_adds fun _ =>
          inScope_adds fun analyzer => ?_) le_rfl)
        Nat.zero_lt_one (inContext_still fun analyzer =>
          inLoop_still fun analyzer => iterationAnalysis_still point
            variableName body analyzer).gathers
      exact (statement_adds .body _ body _).before (declare_silent _ _ _ _)
  | .parallel variableName iterable body => fun analyzer => by
      rw [statement]
      refine reached_adds (fun _ _ => by rw [statement]; rfl)
        fun point analyzer => ?_
      refine adds_child (expression_adds _ iterable _)
        (adds_last (inContext_adds fun _ => inParallel_adds fun _ =>
          inScope_adds fun analyzer => ?_) le_rfl)
        Nat.zero_lt_one (inContext_still fun analyzer =>
          inParallel_still fun analyzer => iterationAnalysis_still point
            variableName body analyzer).gathers
      exact (statement_adds .body _ body _).before (declare_silent _ _ _ _)
  | .match value arms => fun analyzer => by
      rw [statement]
      refine reached_adds (fun _ _ => by rw [statement]; rfl)
        fun point analyzer => ?_
      exact adds_child (expression_adds _ value _)
        (matchArms_adds point 1 arms _) Nat.zero_lt_one
        (matchArms_still _ _ _ _).gathers

theorem listed_adds (point : Point) (i : Nat) :
    ∀ (list : List Stmt) (analyzer : Analyzer),
      Adds (Children point i) analyzer (listed point i list analyzer)
  | [] => fun analyzer => by
      rw [listed]
      exact (Silent.refl _).adds
  | node :: rest => fun analyzer => by
      rw [listed]
      exact adds_child (inContext_adds (statement_adds .listed _ node))
        (listed_adds point (i + 1) rest _) (Nat.lt_succ_self i)
        (listed_moves _ _ _ _).gathers

theorem otherwise_adds (point : Point) :
    ∀ (branch : Option Stmt) (analyzer : Analyzer),
      Adds (Below (2 :: point)) analyzer (otherwise point branch analyzer)
  | none => fun analyzer => by
      rw [otherwise]
      exact (Silent.refl _).adds
  | some branch => fun analyzer => by
      rw [otherwise]
      exact branch_adds (statement_adds .body _ branch)

theorem matchArms_adds (point : Point) (i : Nat) :
    ∀ (arms : List (Pattern × Stmt)) (analyzer : Analyzer),
      Adds (Children point i) analyzer (matchArms point i arms analyzer)
  | [] => fun analyzer => by
      rw [matchArms]
      exact (Silent.refl _).adds
  | (_, body) :: rest => fun analyzer => by
      rw [matchArms]
      exact adds_child (branch_adds (statement_adds .body _ body))
        (matchArms_adds point (i + 1) rest _) (Nat.lt_succ_self i)
        (matchArms_still _ _ _ _).gathers

end

end Statements

end Analyzer

/-- Every visit of a program is covered, at a point of its own below the
root. -/
theorem analysis_adds (identity : Nat) (program : Program) :
    (((analysis identity program).visits).map Visit.point).Nodup ∧
      ∀ visit ∈ (analysis identity program).visits,
        Analyzer.Children [] 0 visit.point ∧
          (analysis identity program).CoversVisit visit := by
  have inside : ∀ analyzer : Analyzer, Analyzer.Adds (Analyzer.Children [] 0)
      analyzer (Analyzer.statements [] program.statements analyzer) :=
    fun analyzer => (Analyzer.listed_adds [] 0 program.statements _).before
      (Analyzer.hoist_silent analyzer [] 0 program.statements)
  obtain ⟨added, visits, distinct, each⟩ : Analyzer.Adds
      (Analyzer.Children [] 0)
      (Analyzer.new (TypeRegistry.new identity program))
      (analysis identity program) := Analyzer.inScope_adds inside
  have same : (analysis identity program).visits = added := by
    rw [visits]
    rfl
  rw [same]
  exact ⟨distinct, each⟩

end NetLang
