import NetLang.Relational.Analysis

/-!
# The walks over a program and its rewriting

The checks of each kind of node, and the walk over expressions and over
statements, one case for each form of a node.
-/

namespace NetLang

variable {rewriting : Rewriting}

section Constructors

theorem StaticRel.constructedFields {static static' : Static}
    (related : StaticRel rewriting static static') (name : String) :
    (Analyzer.constructedFields static' name).value =
      (Analyzer.constructedFields static name).value.map
        (List.map rewriting.field) := by
  unfold Analyzer.constructedFields
  rw [related.types.resolve]
  split
  · simp only [related.types.fields, Read.value_bind, Read.value_pure,
      Option.map_some]
  · rfl

variable {left right : Analyzer} (related : AnalyzerRel rewriting left right)
  (point : Point)

include related

theorem AnalyzerRel.constructorType (name : String)
    (definition : Option (List TypeField)) :
    AnalyzerRel rewriting (left.constructorType point name definition)
      (right.constructorType point name
        (definition.map (List.map rewriting.field))) := by
  unfold Analyzer.constructorType
  cases definition with
  | none => exact related.report point point _ _
  | some fields => exact related

/-- What is read does not matter. -/
theorem AnalyzerRel.reading {α β : Type} (read : Read α) (read' : Read β) :
    AnalyzerRel rewriting (left.reading read) (right.reading read') :=
  { related with }

theorem AnalyzerRel.constructorField (name : String)
    (definition : Option (List TypeField)) (seen : List String)
    (key : String) (value : Expr) :
    AnalyzerRel rewriting
      (left.constructorField point name definition seen key value)
      (right.constructorField point name
        (definition.map (List.map rewriting.field)) seen key
        (rewriting.expr value)) := by
  unfold Analyzer.constructorField
  extract_lets checked checked'
  have checkeds : AnalyzerRel rewriting checked checked' :=
    related.report_if point _ _ _
  cases definition with
  | none => exact checkeds
  | some definition =>
      simp only [Option.map_some, List.find?_map]
      have same : ((fun field : TypeField => field.name == key) ∘
          rewriting.field) = fun field => field.name == key := rfl
      rw [same]
      cases definition.find? fun field => field.name == key with
      | none => exact checkeds.report point point _ _
      | some field =>
          simp only [Option.map_some]
          apply AnalyzerRel.checkExpected checkeds
          rw [checkeds.static.types.resolve]
          simp only [Rewriting.field, Rewriting.typeAnnotated_name]
          exact weakens_refl _

theorem AnalyzerRel.missingFields (name : String) (given : List String)
    (fields : List TypeField) :
    AnalyzerRel rewriting (Analyzer.missingFields point name given fields left)
      (Analyzer.missingFields point name given (fields.map rewriting.field)
        right) := by
  induction fields generalizing left right with
  | nil => exact related
  | cons field rest induction =>
      simp only [List.map_cons, Analyzer.missingFields, Rewriting.field]
      apply induction
      split
      · exact related
      · exact related.report point point _ _

end Constructors

section Assignments

variable (rewriting) in
theorem rootOf_rewriting : ∀ target : Expr,
    Analyzer.rootOf (rewriting.expr target) = rewriting.expr (Analyzer.rootOf target)
  | .located span inner => by
      rw [Analyzer.rootOf, Rewriting.expr]
      split
      · exact rootOf_rewriting inner
      · rw [Analyzer.rootOf]
        exact rootOf_rewriting inner
  | .property object _ => by
      rw [Analyzer.rootOf, Rewriting.expr, Analyzer.rootOf]
      exact rootOf_rewriting object
  | .index object _ => by
      rw [Analyzer.rootOf, Rewriting.expr, Analyzer.rootOf]
      exact rootOf_rewriting object
  | .construct _ _ | .connection _ _ _ | .send _ _ _ | .receive _
  | .request _ _ _ | .integer _ | .float _ | .string _ | .boolean _ | .null
  | .duration _ | .identifier _ | .array _ | .object _ | .unary _ _
  | .binary _ _ _ | .assignment _ _ | .call _ _ => by
      simp only [Rewriting.expr, Analyzer.rootOf]

theorem rootOf_ne_located : ∀ (target : Expr) (span : Span) (inner : Expr),
    Analyzer.rootOf target ≠ .located span inner
  | .located _ node, span, inner | .property node _, span, inner
  | .index node _, span, inner => by
      rw [Analyzer.rootOf]
      exact rootOf_ne_located node span inner
  | .construct _ _, _, _ | .connection _ _ _, _, _ | .send _ _ _, _, _
  | .receive _, _, _ | .request _ _ _, _, _ | .integer _, _, _
  | .float _, _, _ | .string _, _, _ | .boolean _, _, _ | .null, _, _
  | .duration _, _, _ | .identifier _, _, _ | .array _, _, _
  | .object _, _, _ | .unary _ _, _, _ | .binary _ _ _, _, _
  | .assignment _ _, _, _ | .call _ _, _, _ => nofun

theorem StaticRel.isImmutable {static static' : Static}
    (related : StaticRel rewriting static static') (name : String) :
    Analyzer.isImmutable static' name = Analyzer.isImmutable static name := by
  unfold Analyzer.isImmutable
  obtain ⟨missing, missing'⟩ | ⟨symbol, symbol', found, found', symbols⟩ :=
    optionRel_cases (related.scopes.resolve name)
  · rw [missing, missing']
  · rw [found, found']
    simp only [Option.any_some, symbols.isMutable]

/-- Without parallel statements nothing is captured. -/
theorem StaticRel.capturedRoot {static static' : Static}
    (related : StaticRel rewriting static static') (target : Expr) :
    Analyzer.capturedRoot static' (rewriting.expr target) =
        Analyzer.capturedRoot static target ∨
      rewriting.lessens = true ∧
        Analyzer.capturedRoot static' (rewriting.expr target) = none := by
  unfold Analyzer.capturedRoot
  rw [rootOf_rewriting, related.boundaries]
  cases serial : rewriting.parallel with
  | true =>
      right
      refine ⟨lessens_of_serial serial, ?_⟩
      split
      · contradiction
      · rfl
  | false =>
      left
      simp only [Bool.false_eq_true, if_false]
      cases shape : Analyzer.rootOf target with
      | located span inner =>
          exact absurd shape (rootOf_ne_located target span inner)
      | identifier name =>
          rw [Rewriting.expr]
          cases static.parallelBoundaries with
          | nil => rfl
          | cons boundary outer =>
              dsimp only
              obtain ⟨missing, missing'⟩ |
                  ⟨⟨depth, symbol⟩, ⟨_, symbol'⟩, found, found', rfl,
                    symbols⟩ :=
                optionRel_cases (related.scopes.resolveWithDepth name)
              · rw [missing, missing']
              · rw [found, found']
                simp only [symbols.isMutable]
      | _ => simp only [Rewriting.expr]

theorem StaticRel.memberType {static static' : Static}
    (related : StaticRel rewriting static static') (target : Expr) :
    rewriting.Weakens (Analyzer.memberType static target).value
      (Analyzer.memberType static' (rewriting.expr target)).value := by
  unfold Analyzer.memberType
  rw [funext related.types.resolve]
  exact (related.knownType target).bind _

theorem StaticRel.targetType {static static' : Static}
    (related : StaticRel rewriting static static') (target : Expr) :
    rewriting.Weakens (Analyzer.targetType static target.unspanned).value
      (Analyzer.targetType static'
        (rewriting.expr target).unspanned).value := by
  rw [rewriting.expr_unspanned]
  cases shape : target.unspanned with
  | located span inner =>
      exact absurd shape (Expr.unspanned_ne_located target span inner)
  | identifier name =>
      rw [Rewriting.expr]
      change rewriting.Weakens
        ((static.scopes.resolve name).bind Symbol.annotated)
        ((static'.scopes.resolve name).bind Symbol.annotated)
      obtain ⟨missing, missing'⟩ | ⟨symbol, symbol', found, found', symbols⟩ :=
        optionRel_cases (related.scopes.resolve name)
      · rw [missing, missing']
        exact weakens_refl _
      · rw [found, found']
        exact symbols.annotated
  | property object name =>
      have members := related.memberType (.property object name)
      rw [Rewriting.expr] at members ⊢
      exact members
  | index object index =>
      have members := related.memberType (.index object index)
      rw [Rewriting.expr] at members ⊢
      exact members
  | _ =>
      rw [Rewriting.expr]
      exact weakens_refl _

variable {left right : Analyzer} (related : AnalyzerRel rewriting left right)
  (point : Point)

include related

theorem AnalyzerRel.checkMutable (name : String) :
    AnalyzerRel rewriting (left.checkMutable point name)
      (right.checkMutable point name) := by
  unfold Analyzer.checkMutable
  rw [related.static.isImmutable]
  exact related.report_if point _ _ _

theorem AnalyzerRel.checkTarget (target : Expr) :
    AnalyzerRel rewriting (left.checkTarget point target.unspanned)
      (right.checkTarget point (rewriting.expr target).unspanned) := by
  rw [rewriting.expr_unspanned]
  cases shape : target.unspanned with
  | located span inner =>
      exact absurd shape (Expr.unspanned_ne_located target span inner)
  | identifier name =>
      rw [Rewriting.expr]
      exact related
  | property object name =>
      rw [Rewriting.expr]
      exact related
  | index object index =>
      rw [Rewriting.expr]
      exact related
  | _ =>
      rw [Rewriting.expr]
      exact related.report point point _ _

theorem AnalyzerRel.checkParallelAssignment (target : Expr) :
    AnalyzerRel rewriting (left.checkParallelAssignment point target)
      (right.checkParallelAssignment point (rewriting.expr target)) := by
  unfold Analyzer.checkParallelAssignment
  obtain same | ⟨lessens, nothing⟩ := related.static.capturedRoot target
  · rw [same]
    split
    · exact related.report point point _ _
    · exact related
  · rw [nothing]
    split
    · exact related.report_left lessens point _ _
    · exact related

end Assignments

section Calls

/-- What a call is checked against, if its callee is a known function. -/
theorem calleeArity_eq (static : Static) (callee : Expr) :
    Analyzer.calleeArity static callee = callee.identifier?.bind fun name =>
      match static.scopes.resolve name with
      | some (.function arity _ _) => some (name, arity)
      | _ => none := by
  cases callee <;> rfl

theorem calleeParameters_eq (static : Static) (callee : Expr) :
    Analyzer.calleeParameters static callee =
      match callee.identifier?.bind static.scopes.resolve with
      | some (.function _ parameters _) => parameters
      | _ => [] := by
  cases callee <;> rfl

theorem StaticRel.calleeArity {static static' : Static}
    (related : StaticRel rewriting static static') (callee : Expr) :
    Analyzer.calleeArity static' (rewriting.expr callee).unspanned =
      Analyzer.calleeArity static callee.unspanned := by
  rw [calleeArity_eq, calleeArity_eq, rewriting.identifier?_unspanned]
  congr 1
  funext name
  obtain ⟨missing, missing'⟩ | ⟨symbol, symbol', found, found', symbols⟩ :=
    optionRel_cases (related.scopes.resolve name)
  · rw [missing, missing']
  · rw [found, found']
    match symbol, symbol', symbols with
    | .function _ _ _, .function _ _ _, ⟨rfl, _, _⟩ => rfl
    | .variable _, .variable _, _ | .parameter _, .parameter _, _
    | .loopVariable, .loopVariable, _ | .builtin, .builtin, _ => rfl

theorem StaticRel.calleeParameters {static static' : Static}
    (related : StaticRel rewriting static static') (callee : Expr) :
    List.Forall₂ rewriting.Weakens
      (Analyzer.calleeParameters static callee.unspanned)
      (Analyzer.calleeParameters static'
        (rewriting.expr callee).unspanned) := by
  rw [calleeParameters_eq, calleeParameters_eq]
  obtain ⟨missing, missing'⟩ | ⟨symbol, symbol', found, found', symbols⟩ :=
    optionRel_cases (related.callee callee)
  · rw [missing, missing']
    exact .nil
  · rw [found, found']
    match symbol, symbol', symbols with
    | .function _ _ _, .function _ _ _, ⟨_, parameters, _⟩ => exact parameters
    | .variable _, .variable _, _ | .parameter _, .parameter _, _
    | .loopVariable, .loopVariable, _ | .builtin, .builtin, _ => exact .nil

variable {left right : Analyzer} (related : AnalyzerRel rewriting left right)
  (point : Point)

include related

theorem AnalyzerRel.checkArity (callee : Expr) (given : Nat) :
    AnalyzerRel rewriting (left.checkArity point callee.unspanned given)
      (right.checkArity point (rewriting.expr callee).unspanned given) := by
  unfold Analyzer.checkArity
  rw [related.static.calleeArity]
  split
  · exact related.report_if point _ _ _
  · exact related

theorem AnalyzerRel.checkArguments (arguments : List Expr)
    {parameters parameters' : List (Option ResolvedType)}
    (weakens : List.Forall₂ rewriting.Weakens parameters parameters') :
    AnalyzerRel rewriting
      (Analyzer.checkArguments point arguments parameters left)
      (Analyzer.checkArguments point (rewriting.exprList arguments) parameters'
        right) := by
  induction arguments generalizing left right parameters parameters' with
  | nil =>
      rw [Rewriting.exprList]
      unfold Analyzer.checkArguments
      exact related
  | cons argument rest induction =>
      rw [Rewriting.exprList]
      cases weakens with
      | nil =>
          unfold Analyzer.checkArguments
          exact related
      | cons head tail =>
          unfold Analyzer.checkArguments
          exact induction (related.checkExpected point argument head) tail

end Calls

section Expressions

theorem fieldList_keys (fields : List (String × Expr)) :
    (rewriting.fieldList fields).map Prod.fst = fields.map Prod.fst := by
  induction fields with
  | nil => rw [Rewriting.fieldList]
  | cons field rest induction =>
      rw [Rewriting.fieldList, List.map_cons, List.map_cons, induction]

theorem exprList_length (list : List Expr) :
    (rewriting.exprList list).length = list.length := by
  rw [rewriting.exprList_eq_map, List.length_map]

mutual

/-- The walk over an expression and over its rewriting. -/
theorem expression_alike (point : Point) : ∀ node : Expr,
    AnalyzeAlike rewriting (Analyzer.expression point node)
      (Analyzer.expression point (rewriting.expr node))
  | .located span inner => by
      intro left right related
      rw [Rewriting.expr, Analyzer.expression]
      split
      · exact related.located_left (expression_alike point inner) _
      · rw [Analyzer.expression]
        exact related.located (expression_alike point inner) _ _
  | .construct name fields => by
      intro left right related
      rw [Rewriting.expr, Analyzer.expression, Analyzer.expression]
      have visiteds := related.visit point point
        (.expression (.construct name fields))
        (.expression (.construct name (rewriting.fieldList fields)))
      have declared : ∀ definition : Option (List TypeField),
          (definition.map (List.map rewriting.field)).getD [] =
            (definition.getD []).map rewriting.field :=
        fun definition => by cases definition <;> rfl
      rw [fieldList_keys, visiteds.static.constructedFields, declared]
      apply AnalyzerRel.missingFields
      apply constructorFields_alike
      exact (visiteds.reading _ _).constructorType point name _
  | .connection transport address protocol => by
      intro left right related
      rw [Rewriting.expr, Analyzer.expression, Analyzer.expression]
      exact expression_alike _ address (related.visit _ _ _ _)
  | .send connection data destination => by
      intro left right related
      rw [Rewriting.expr, Analyzer.expression, Analyzer.expression]
      exact optional_alike _ destination (expression_alike _ data
        (expression_alike _ connection (related.visit _ _ _ _)))
  | .receive connection => by
      intro left right related
      rw [Rewriting.expr, Analyzer.expression, Analyzer.expression]
      exact expression_alike _ connection (related.visit _ _ _ _)
  | .request method url config => by
      intro left right related
      rw [Rewriting.expr, Analyzer.expression, Analyzer.expression]
      exact optional_alike _ config
        (expression_alike _ url (related.visit _ _ _ _))
  | .integer _ | .float _ | .string _ | .boolean _ | .null | .duration _ => by
      intro left right related
      rw [Rewriting.expr, Analyzer.expression, Analyzer.expression]
      exact related.visit _ _ _ _
  | .identifier name => by
      intro left right related
      rw [Rewriting.expr, Analyzer.expression, Analyzer.expression]
      exact (related.visit _ _ _ _).resolve point point name
  | .array values => by
      intro left right related
      rw [Rewriting.expr, Analyzer.expression, Analyzer.expression]
      exact expressions_alike point 0 values (related.visit _ _ _ _)
  | .object fields => by
      intro left right related
      rw [Rewriting.expr, Analyzer.expression, Analyzer.expression]
      exact fieldValues_alike point 0 fields (related.visit _ _ _ _)
  | .unary operator operand => by
      intro left right related
      rw [Rewriting.expr, Analyzer.expression, Analyzer.expression]
      exact expression_alike _ operand (related.visit _ _ _ _)
  | .binary first op second => by
      intro left right related
      rw [Rewriting.expr, Analyzer.expression, Analyzer.expression]
      exact expression_alike _ second
        (expression_alike _ first (related.visit _ _ _ _))
  | .assignment target value => by
      intro left right related
      rw [Rewriting.expr, Analyzer.expression, Analyzer.expression]
      have targets : AnalyzeAlike rewriting
          (fun analyzer => Analyzer.checkParallelAssignment
            (match target.unspanned.identifier? with
              | some name =>
                  (analyzer.resolve point name).checkMutable point name
              | none => Analyzer.expression (0 :: point) target
                  (analyzer.checkTarget point target.unspanned)) point target)
          (fun analyzer => Analyzer.checkParallelAssignment
            (match (rewriting.expr target).unspanned.identifier? with
              | some name =>
                  (analyzer.resolve point name).checkMutable point name
              | none => Analyzer.expression (0 :: point)
                  (rewriting.expr target) (analyzer.checkTarget point
                    (rewriting.expr target).unspanned)) point
            (rewriting.expr target)) := by
        intro before before' befores
        apply AnalyzerRel.checkParallelAssignment
        rw [rewriting.identifier?_unspanned]
        split
        · exact (befores.resolve point point _).checkMutable point _
        · exact expression_alike _ target (befores.checkTarget point target)
      have values := expression_alike (1 :: point) value
        ((related.visit point point (.expression (.assignment target value))
          (.expression (.assignment (rewriting.expr target)
            (rewriting.expr value)))).located targets target.span
          (rewriting.expr target).span)
      exact (values.reading _ _).checkExpected point value
        (values.static.targetType target)
  | .call callee arguments => by
      intro left right related
      rw [Rewriting.expr, Analyzer.expression, Analyzer.expression]
      have calleds := expression_alike (0 :: point) callee
        (related.visit point point (.expression (.call callee arguments))
          (.expression (.call (rewriting.expr callee)
            (rewriting.exprList arguments))))
      have givens := expressions_alike point 1 arguments
        (calleds.checkArity point callee arguments.length)
      rw [exprList_length]
      exact givens.checkArguments point arguments
        (givens.static.calleeParameters callee)
  | .property object name => by
      intro left right related
      rw [Rewriting.expr, Analyzer.expression, Analyzer.expression]
      exact AnalyzerRel.checkMember
        (expression_alike _ object (related.visit _ _ _ _)) point object name
  | .index object subscript => by
      intro left right related
      rw [Rewriting.expr, Analyzer.expression, Analyzer.expression,
        rewriting.stringLiteral?_unspanned]
      have walked := expression_alike (1 :: point) subscript
        (expression_alike (0 :: point) object (related.visit point point
          (.expression (.index object subscript)) (.expression (.index
            (rewriting.expr object) (rewriting.expr subscript)))))
      split
      · exact walked.checkMember point object _
      · exact walked

theorem optional_alike (point : Point) : ∀ node : Option Expr,
    AnalyzeAlike rewriting (Analyzer.optional point node)
      (Analyzer.optional point (rewriting.exprOption node))
  | none => by
      intro left right related
      rw [Rewriting.exprOption, Analyzer.optional, Analyzer.optional]
      exact related
  | some node => by
      intro left right related
      rw [Rewriting.exprOption, Analyzer.optional, Analyzer.optional]
      exact expression_alike point node related

theorem expressions_alike (point : Point) (i : Nat) : ∀ list : List Expr,
    AnalyzeAlike rewriting (Analyzer.expressions point i list)
      (Analyzer.expressions point i (rewriting.exprList list))
  | [] => by
      intro left right related
      rw [Rewriting.exprList, Analyzer.expressions, Analyzer.expressions]
      exact related
  | node :: rest => by
      intro left right related
      rw [Rewriting.exprList, Analyzer.expressions, Analyzer.expressions]
      exact expressions_alike point (i + 1) rest
        (expression_alike _ node related)

theorem fieldValues_alike (point : Point) (i : Nat) :
    ∀ fields : List (String × Expr),
    AnalyzeAlike rewriting (Analyzer.fieldValues point i fields)
      (Analyzer.fieldValues point i (rewriting.fieldList fields))
  | [] => by
      intro left right related
      rw [Rewriting.fieldList, Analyzer.fieldValues, Analyzer.fieldValues]
      exact related
  | (_, node) :: rest => by
      intro left right related
      rw [Rewriting.fieldList, Analyzer.fieldValues, Analyzer.fieldValues]
      exact fieldValues_alike point (i + 1) rest
        (expression_alike _ node related)

theorem constructorFields_alike (point : Point) (name : String)
    (definition : Option (List TypeField)) (i : Nat) :
    ∀ (fields : List (String × Expr)) (seen : List String),
    AnalyzeAlike rewriting
      (Analyzer.constructorFields point name definition i fields seen)
      (Analyzer.constructorFields point name (definition.map (List.map rewriting.field))
        i (rewriting.fieldList fields) seen)
  | [], seen => by
      intro left right related
      rw [Rewriting.fieldList, Analyzer.constructorFields, Analyzer.constructorFields]
      exact related
  | (key, node) :: rest, seen => by
      intro left right related
      rw [Rewriting.fieldList, Analyzer.constructorFields, Analyzer.constructorFields]
      apply constructorFields_alike point name definition (i + 1) rest
      exact AnalyzerRel.constructorField (expression_alike _ node related)
        point name definition seen key node

end

end Expressions

end NetLang
