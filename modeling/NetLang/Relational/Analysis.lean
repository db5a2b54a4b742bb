import NetLang.Relational.Programs
import NetLang.Semantic.Analyze

/-!
# The analyses of a program and of its rewriting

Both analyses walk over the same nodes.  Without annotations the right one
knows less, and without parallel statements it has fewer rules to enforce; in
either case it finds nothing wrong where the left one does not.  Otherwise
both find the same errors.
-/

namespace NetLang

variable {rewriting : Rewriting}

namespace Rewriting

/-- The right analysis may find fewer errors. -/
abbrev lessens (rewriting : Rewriting) : Bool :=
  rewriting.annotations || rewriting.parallel

/-- What is known on the left is known on the right, or was erased. -/
def Weakens {α : Type} (rewriting : Rewriting) (left right : Option α) :
    Prop :=
  right = left ∨ rewriting.annotations = true ∧ right = none

def loop (rewriting : Rewriting) (kind : LoopKind) : LoopKind :=
  if rewriting.parallel then .serial else kind

end Rewriting

section Weakens

variable {α β : Type} {left right : Option α}

theorem weakens_refl (known : Option α) : rewriting.Weakens known known :=
  .inl rfl

theorem weakens_none (left : Option α)
    (erased : rewriting.annotations = true) : rewriting.Weakens left none :=
  .inr ⟨erased, rfl⟩

theorem Rewriting.Weakens.bind (weakens : rewriting.Weakens left right)
    (f : α → Option β) : rewriting.Weakens (left.bind f) (right.bind f) := by
  obtain rfl | ⟨erased, rfl⟩ := weakens
  · exact .inl rfl
  · exact .inr ⟨erased, rfl⟩

theorem Rewriting.Weakens.filter (weakens : rewriting.Weakens left right)
    (keeps : α → Bool) :
    rewriting.Weakens (left.filter keeps) (right.filter keeps) := by
  obtain rfl | ⟨erased, rfl⟩ := weakens
  · exact .inl rfl
  · exact .inr ⟨erased, rfl⟩

theorem Rewriting.Weakens.map (weakens : rewriting.Weakens left right)
    (f : α → β) : rewriting.Weakens (left.map f) (right.map f) := by
  obtain rfl | ⟨erased, rfl⟩ := weakens
  · exact .inl rfl
  · exact .inr ⟨erased, rfl⟩

end Weakens

/-- An error without its location. -/
def SemanticError.unlocated (error : SemanticError) : SemanticError :=
  { error with span := none }

namespace Symbol

def Rel (rewriting : Rewriting) : Symbol → Symbol → Prop
  | .variable ty, .variable ty' | .parameter ty, .parameter ty' =>
      rewriting.Weakens ty ty'
  | .function arity parameters returnType,
      .function arity' parameters' returnType' =>
      arity' = arity ∧
        List.Forall₂ rewriting.Weakens parameters parameters' ∧
        rewriting.Weakens returnType returnType'
  | .loopVariable, .loopVariable | .builtin, .builtin => True
  | _, _ => False

theorem rel_refl : ∀ symbol : Symbol, symbol.Rel rewriting symbol
  | .variable _ | .parameter _ => .inl rfl
  | .loopVariable | .builtin => trivial
  | .function _ _ _ =>
      ⟨rfl, List.forall₂_same.mpr fun _ _ => .inl rfl, .inl rfl⟩

theorem Rel.isMutable : ∀ {left right : Symbol}, left.Rel rewriting right →
    right.isMutable = left.isMutable
  | .variable _, .variable _, _ | .parameter _, .parameter _, _
  | .loopVariable, .loopVariable, _ | .function _ _ _, .function _ _ _, _
  | .builtin, .builtin, _ => rfl

theorem Rel.annotated : ∀ {left right : Symbol}, left.Rel rewriting right →
    rewriting.Weakens left.annotated right.annotated
  | .variable _, .variable _, weakens
  | .parameter _, .parameter _, weakens => weakens
  | .loopVariable, .loopVariable, _ | .function _ _ _, .function _ _ _, _
  | .builtin, .builtin, _ => .inl rfl

/-- The declared result of a function. -/
def result? : Symbol → Option ResolvedType
  | .function _ _ returnType => returnType
  | _ => none

theorem Rel.result? : ∀ {left right : Symbol}, left.Rel rewriting right →
    rewriting.Weakens left.result? right.result?
  | .function _ _ _, .function _ _ _, ⟨_, _, weakens⟩ => weakens
  | .variable _, .variable _, _ | .parameter _, .parameter _, _
  | .loopVariable, .loopVariable, _ | .builtin, .builtin, _ => .inl rfl

end Symbol

namespace Scopes

/-- The same names, with related symbols. -/
def Rel (rewriting : Rewriting) : Scopes → Scopes → Prop :=
  List.Forall₂ fun left right =>
    List.Forall₂ (fun entry entry' =>
      entry'.1 = entry.1 ∧ entry.2.Rel rewriting entry'.2) left.symbols
      right.symbols

theorem symbols_get? {left right : NameMap Symbol}
    (related : List.Forall₂ (fun entry entry' =>
      entry'.1 = entry.1 ∧ entry.2.Rel rewriting entry'.2) left right)
    (name : String) :
    Option.Rel (Symbol.Rel rewriting) (NameMap.get? left name)
      (NameMap.get? right name) := by
  unfold NameMap.get?
  induction related with
  | nil => exact .none
  | @cons entry entry' rest rest' head tail induction =>
      obtain ⟨key, symbol⟩ := entry
      obtain ⟨key', symbol'⟩ := entry'
      obtain ⟨same, symbols⟩ := head
      cases (same : key' = key)
      rw [List.lookup_cons, List.lookup_cons]
      cases name == key
      · exact induction
      · exact .some symbols

theorem Rel.resolveWithDepth {left right : Scopes}
    (related : left.Rel rewriting right) (name : String) :
    Option.Rel (fun found found' => found'.1 = found.1 ∧
      found.2.Rel rewriting found'.2) (left.resolveWithDepth name)
      (right.resolveWithDepth name) := by
  induction related with
  | nil => exact .none
  | cons head tail induction =>
      unfold Scopes.resolveWithDepth
      obtain ⟨missing, missing'⟩ | ⟨symbol, symbol', found, found', symbols⟩ :=
        optionRel_cases (symbols_get? head name)
      · rw [missing, missing']
        exact induction
      · rw [found, found']
        exact .some ⟨tail.length_eq.symm, symbols⟩

theorem Rel.resolve {left right : Scopes}
    (related : left.Rel rewriting right) (name : String) :
    Option.Rel (Symbol.Rel rewriting) (left.resolve name)
      (right.resolve name) := by
  unfold Scopes.resolve
  obtain ⟨missing, missing'⟩ | ⟨found, found', at', at'', _, symbols⟩ :=
    optionRel_cases (related.resolveWithDepth name)
  · rw [missing, missing']
    exact .none
  · rw [at', at'']
    exact .some symbols

theorem Rel.length_eq {left right : Scopes}
    (related : left.Rel rewriting right) : left.length = right.length :=
  List.Forall₂.length_eq related

theorem Rel.tail {left right : Scopes} (related : left.Rel rewriting right) :
    Scopes.Rel rewriting left.tail right.tail := by
  cases related with
  | nil => exact .nil
  | cons head tail => exact tail

theorem Rel.declare {left right : Scopes} (related : left.Rel rewriting right)
    (name : String) {symbol symbol' : Symbol}
    (symbols : symbol.Rel rewriting symbol') :
    Option.Rel (Rel rewriting) (left.declare name symbol)
      (right.declare name symbol') := by
  cases related with
  | nil => exact .none
  | cons head tail =>
      unfold Scopes.declare
      obtain ⟨missing, missing'⟩ | ⟨_, _, found, found', _⟩ :=
        optionRel_cases (symbols_get? head name)
      · simp only [missing, missing']
        exact .some (.cons (.cons ⟨rfl, symbols⟩ head) tail)
      · simp only [found, found']
        exact .none

end Scopes

structure StaticRel (rewriting : Rewriting) (left right : Static) : Prop where
  types : TypesAgree rewriting .equality left.types right.types
  returnType : rewriting.Weakens left.returnType right.returnType
  loops : right.loops = left.loops.map rewriting.loop
  scopes : left.scopes.Rel rewriting right.scopes
  functionDepth : right.functionDepth = left.functionDepth
  boundaries : right.parallelBoundaries =
    if rewriting.parallel then [] else left.parallelBoundaries

/-- Errors of both analyses. -/
def ReportsRel (rewriting : Rewriting) (left right : List Report) : Prop :=
  if rewriting.lessens then left = [] → right = []
  else right.map (·.error.unlocated) = left.map (·.error.unlocated)

structure AnalyzerRel (rewriting : Rewriting) (left right : Analyzer) :
    Prop where
  static : StaticRel rewriting left.toStatic right.toStatic
  declaredTypes : right.declaredTypes = left.declaredTypes
  context : rewriting.lessens = false → right.context = left.context
  reports : ReportsRel rewriting left.reports right.reports

/-- Both analyses take related states to related states. -/
def AnalyzeAlike (rewriting : Rewriting) (left right : Analyzer → Analyzer) :
    Prop :=
  ∀ ⦃before before'⦄, AnalyzerRel rewriting before before' →
    AnalyzerRel rewriting (left before) (right before')

namespace Rewriting

variable (rewriting : Rewriting)

theorem identifier?_unspanned (node : Expr) :
    (rewriting.expr node).unspanned.identifier? =
      node.unspanned.identifier? := by
  rw [rewriting.expr_unspanned]
  cases shape : node.unspanned with
  | located span inner =>
      exact absurd shape (Expr.unspanned_ne_located node span inner)
  | _ => simp only [Rewriting.expr, Expr.identifier?]

theorem stringLiteral?_unspanned (node : Expr) :
    (rewriting.expr node).unspanned.stringLiteral? =
      node.unspanned.stringLiteral? := by
  rw [rewriting.expr_unspanned]
  cases shape : node.unspanned with
  | located span inner =>
      exact absurd shape (Expr.unspanned_ne_located node span inner)
  | _ => simp only [Rewriting.expr, Expr.stringLiteral?]

end Rewriting

section Known

variable {left right : Static} (related : StaticRel rewriting left right)

include related

theorem StaticRel.fieldType {object object' : Option String}
    (objects : rewriting.Weakens object object') (name : String) :
    rewriting.Weakens (fieldType left.types object name).value
      (fieldType right.types object' name).value := by
  obtain rfl | ⟨erased, rfl⟩ := objects
  · left
    cases object' with
    | none => rfl
    | some object =>
        simp only [NetLang.fieldType, related.types.resolve]
        split
        · simp only [related.types.fields, Read.value_bind, Read.value_pure,
            List.find?_map, Option.map_map]
          congr 1
          funext field
          exact Rewriting.typeAnnotated_name field.annotated
        · rfl
  · exact weakens_none _ erased

theorem StaticRel.identifierType (name : String) :
    rewriting.Weakens (identifierType left name).value
      (identifierType right name).value := by
  unfold NetLang.identifierType
  obtain ⟨missing, missing'⟩ | ⟨symbol, symbol', found, found', symbols⟩ :=
    optionRel_cases (related.scopes.resolve name)
  · rw [missing, missing']
    exact .inl rfl
  · rw [found, found']
    match symbol, symbol', symbols with
    | .variable ty, .variable ty', weakens
    | .parameter ty, .parameter ty', weakens =>
        obtain rfl | ⟨erased, rfl⟩ := weakens
        · left
          cases ty' with
          | none => rfl
          | some ty =>
              simp only [typeName, related.types.name]
        · exact weakens_none _ erased
    | .loopVariable, .loopVariable, _ | .builtin, .builtin, _
    | .function _ _ _, .function _ _ _, _ => exact .inl rfl

omit related in
theorem callType_eq (static : Static) (callee : Expr) :
    (NetLang.callType static callee).value =
      ((callee.identifier?.bind static.scopes.resolve).bind
        Symbol.result?).map fun ty => (static.types.name ty).value := by
  cases callee with
  | identifier name =>
      simp only [NetLang.callType, Expr.identifier?, Option.bind_some]
      cases static.scopes.resolve name with
      | none => rfl
      | some symbol =>
          match symbol with
          | .function _ _ none | .function _ _ (some _) | .variable _
          | .parameter _ | .loopVariable | .builtin => rfl
  | _ => rfl

theorem StaticRel.callee (node : Expr) :
    Option.Rel (Symbol.Rel rewriting)
      (node.unspanned.identifier?.bind left.scopes.resolve)
      ((rewriting.expr node).unspanned.identifier?.bind
        right.scopes.resolve) := by
  rw [rewriting.identifier?_unspanned]
  cases node.unspanned.identifier? with
  | none => exact .none
  | some name => exact related.scopes.resolve name

theorem StaticRel.callType (callee : Expr) :
    rewriting.Weakens (callType left callee.unspanned).value
      (callType right (rewriting.expr callee).unspanned).value := by
  rw [callType_eq, callType_eq, funext related.types.name]
  apply Rewriting.Weakens.map
  obtain ⟨missing, missing'⟩ | ⟨symbol, symbol', found, found', symbols⟩ :=
    optionRel_cases (related.callee callee)
  · rw [missing, missing']
    exact .inl rfl
  · rw [found, found']
    exact Symbol.Rel.result? symbols

/-- Less is known of the rewriting of an expression. -/
theorem StaticRel.knownType : ∀ node : Expr,
    rewriting.Weakens (knownType left node).value
      (knownType right (rewriting.expr node)).value
  | .located span inner => by
      rw [NetLang.knownType, Rewriting.expr]
      split
      · exact StaticRel.knownType inner
      · rw [NetLang.knownType]
        exact StaticRel.knownType inner
  | .property object name => by
      rw [NetLang.knownType, Rewriting.expr, NetLang.knownType]
      exact related.fieldType (StaticRel.knownType object) name
  | .index object index => by
      rw [NetLang.knownType, Rewriting.expr, NetLang.knownType,
        rewriting.stringLiteral?_unspanned]
      split
      · exact related.fieldType (StaticRel.knownType object) _
      · exact .inl rfl
  | .construct name fields => by
      rw [NetLang.knownType, Rewriting.expr, NetLang.knownType,
        related.types.resolve]
      left
      cases left.types.resolve name with
      | none => rfl
      | some ty => simp only [typeName, related.types.name]
  | .identifier name => by
      rw [NetLang.knownType, Rewriting.expr, NetLang.knownType]
      exact related.identifierType name
  | .assignment target value => by
      rw [NetLang.knownType, Rewriting.expr, NetLang.knownType]
      exact StaticRel.knownType value
  | .call callee arguments => by
      rw [NetLang.knownType, Rewriting.expr, NetLang.knownType]
      exact related.callType callee
  | .unary .negate operand => by
      rw [NetLang.knownType, Rewriting.expr, NetLang.knownType]
      exact (StaticRel.knownType operand).filter _
  | .binary first op second => by
      rw [NetLang.knownType, Rewriting.expr, NetLang.knownType]
      split
      · exact .inl rfl
      · rw [Read.value_bind, Read.value_bind]
        obtain same | ⟨erased, unknown⟩ := StaticRel.knownType first
        · rw [same]
          cases (NetLang.knownType left first).value with
          | none => exact .inl rfl
          | some name =>
              simp only [Read.value_bind, Read.value_pure]
              obtain same' | ⟨erased, unknown⟩ := StaticRel.knownType second
              · rw [same']
                exact .inl rfl
              · rw [unknown]
                exact weakens_none _ erased
        · rw [unknown]
          exact weakens_none _ erased
  | .unary .not _ | .integer _ | .float _ | .boolean _ | .string _
  | .duration _ | .null | .array _ | .object _ | .connection _ _ _
  | .send _ _ _ | .receive _ | .request _ _ _ => by
      rw [Rewriting.expr]
      exact .inl rfl

end Known

section Reports

variable {left right : Analyzer}

theorem ReportsRel.both {reports reports' : List Report}
    (related : ReportsRel rewriting reports reports') {found found' : Report}
    (same : rewriting.lessens = false →
      found'.error.unlocated = found.error.unlocated) :
    ReportsRel rewriting (reports ++ [found]) (reports' ++ [found']) := by
  unfold ReportsRel at related ⊢
  cases lessens : rewriting.lessens with
  | true => simp
  | false =>
      simp only [lessens, Bool.false_eq_true, if_false] at related ⊢
      rw [List.map_append, List.map_append, related]
      exact congrArg _ (congrArg (List.cons · []) (same lessens))

theorem AnalyzerRel.report (related : AnalyzerRel rewriting left right)
    (point point' : Point) (kind : SemanticErrorKind) (message : String) :
    AnalyzerRel rewriting (left.report point kind message)
      (right.report point' kind message) := by
  refine ⟨related.static, related.declaredTypes, related.context, ?_⟩
  apply related.reports.both
  intro lenient
  simp only [SemanticError.unlocated, related.context lenient]

/-- An error that only the left analysis finds. -/
theorem AnalyzerRel.report_left (related : AnalyzerRel rewriting left right)
    (lessens : rewriting.lessens = true) (point : Point)
    (kind : SemanticErrorKind) (message : String) :
    AnalyzerRel rewriting (left.report point kind message) right := by
  refine ⟨related.static, related.declaredTypes, related.context, ?_⟩
  unfold ReportsRel
  rw [if_pos lessens]
  intro nothing
  simp [Analyzer.report] at nothing

/-- Whatever the right analysis finds, if the left one finds an error. -/
theorem AnalyzerRel.report_both (related : AnalyzerRel rewriting left right)
    (lessens : rewriting.lessens = true) (point : Point)
    (kind kind' : SemanticErrorKind) (message message' : String) :
    AnalyzerRel rewriting (left.report point kind message)
      (right.report point kind' message') := by
  refine ⟨related.static, related.declaredTypes, related.context, ?_⟩
  apply related.reports.both
  intro lenient
  rw [lessens] at lenient
  cases lenient

theorem lessens_of_erased (erased : rewriting.annotations = true) :
    rewriting.lessens = true := by
  simp [erased]

theorem lessens_of_serial (serial : rewriting.parallel = true) :
    rewriting.lessens = true := by
  simp [serial]

end Reports

section Combinators

variable {f g : Analyzer → Analyzer} {left right : Analyzer}

theorem AnalyzerRel.visit (related : AnalyzerRel rewriting left right)
    (point point' : Point) (node node' : Node) :
    AnalyzerRel rewriting (left.visit point node)
      (right.visit point' node') :=
  { related with }

theorem AnalyzerRel.located (alike : AnalyzeAlike rewriting f g)
    (related : AnalyzerRel rewriting left right) (span span' : Option Span) :
    AnalyzerRel rewriting (left.located span f) (right.located span' g) := by
  have after : AnalyzerRel rewriting
      (f { left with currentSpan := span.or left.currentSpan })
      (g { right with currentSpan := span'.or right.currentSpan }) :=
    alike { related with }
  exact { after with }

/-- A location that only the left node has. -/
theorem AnalyzerRel.located_left (alike : AnalyzeAlike rewriting f g)
    (related : AnalyzerRel rewriting left right) (span : Option Span) :
    AnalyzerRel rewriting (left.located span f) (g right) := by
  have after : AnalyzerRel rewriting
      (f { left with currentSpan := span.or left.currentSpan }) (g right) :=
    alike { related with }
  exact { after with }

theorem AnalyzerRel.inContext (alike : AnalyzeAlike rewriting f g)
    (related : AnalyzerRel rewriting left right) {label label' : String}
    (same : rewriting.lessens = false → label' = label) :
    AnalyzerRel rewriting (left.inContext label f)
      (right.inContext label' g) := by
  have after : AnalyzerRel rewriting
      (f { left with context := left.context ++ [label] })
      (g { right with context := right.context ++ [label'] }) :=
    alike { related with
      context := fun lenient => by
        rw [related.context lenient, same lenient] }
  exact { after with
    context := fun lenient => congrArg List.dropLast (after.context lenient) }

theorem AnalyzerRel.inScope (alike : AnalyzeAlike rewriting f g)
    (related : AnalyzerRel rewriting left right) (point : Point) :
    AnalyzerRel rewriting (left.inScope point f) (right.inScope point g) := by
  have after : AnalyzerRel rewriting
      (f { left with scopes := ⟨point, []⟩ :: left.scopes })
      (g { right with scopes := ⟨point, []⟩ :: right.scopes }) :=
    alike { related with
      static := { related.static with
        types := related.static.types
        scopes := .cons .nil related.static.scopes } }
  exact { after with
    static := { after.static with
      types := after.static.types
      scopes := after.static.scopes.tail } }

theorem AnalyzerRel.declare (related : AnalyzerRel rewriting left right)
    (point point' : Point) (name : String) {symbol symbol' : Symbol}
    (symbols : symbol.Rel rewriting symbol') :
    AnalyzerRel rewriting (left.declare point name symbol)
      (right.declare point' name symbol') := by
  unfold Analyzer.declare
  obtain ⟨missing, missing'⟩ | ⟨scopes, scopes', found, found', declared⟩ :=
    optionRel_cases (related.static.scopes.declare name symbols)
  · rw [missing, missing']
    exact related.report point point' _ _
  · rw [found, found']
    exact { related with
      static := { related.static with
        types := related.static.types
        scopes := declared } }

theorem AnalyzerRel.resolve (related : AnalyzerRel rewriting left right)
    (point point' : Point) (name : String) :
    AnalyzerRel rewriting (left.resolve point name)
      (right.resolve point' name) := by
  unfold Analyzer.resolve
  obtain ⟨missing, missing'⟩ | ⟨symbol, symbol', found, found', _⟩ :=
    optionRel_cases (related.static.scopes.resolve name)
  · rw [missing, missing']
    exact related.report point point' _ _
  · rw [found, found']
    exact related

theorem AnalyzerRel.resolveType (related : AnalyzerRel rewriting left right)
    (point point' : Point) (annotated : TypeAnnotation) :
    AnalyzerRel rewriting (left.resolveType point annotated)
      (right.resolveType point' (rewriting.typeAnnotated annotated)) := by
  unfold Analyzer.resolveType
  rw [Rewriting.typeAnnotated_name, related.static.types.resolve]
  split
  · exact related
  · apply AnalyzerRel.located _ related
    intro before before' befores
    exact befores.report point point' _ _

theorem AnalyzerRel.resolveAnnotated
    (related : AnalyzerRel rewriting left right) (point point' : Point)
    (annotated : Option TypeAnnotation) :
    AnalyzerRel rewriting (left.resolveAnnotated point annotated)
      (right.resolveAnnotated point' (rewriting.optional annotated)) := by
  cases annotated with
  | none =>
      unfold Rewriting.optional
      split <;> exact related
  | some annotated =>
      unfold Rewriting.optional
      split
      · next erased =>
          have reported : AnalyzeAlike rewriting
              (fun analyzer => analyzer.report point .unknownType
                s!"unknown type '{annotated.name}'") id :=
            fun _ _ befores => befores.report_left (lessens_of_erased erased)
              point _ _
          change AnalyzerRel rewriting (left.resolveType point annotated)
            right
          unfold Analyzer.resolveType
          split
          · exact related
          · exact AnalyzerRel.located_left reported related _
      · exact related.resolveType point point' annotated

theorem StaticRel.annotationType {static static' : Static}
    (related : StaticRel rewriting static static')
    (annotated : Option TypeAnnotation) :
    rewriting.Weakens (Analyzer.annotationType static annotated)
      (Analyzer.annotationType static' (rewriting.optional annotated)) := by
  unfold Rewriting.optional Analyzer.annotationType
  split
  · next erased => exact weakens_none _ erased
  · left
    cases annotated with
    | none => rfl
    | some annotated =>
        simp only [Option.map_some, Option.bind_some,
          Rewriting.typeAnnotated_name, related.types.resolve]

end Combinators

section Checks

variable {left right : Analyzer} (related : AnalyzerRel rewriting left right)
  (point : Point)

include related

/-- A check that only the left analysis makes. -/
theorem AnalyzerRel.checkType_left (lessens : rewriting.lessens = true)
    (node : Expr) (expected : ResolvedType) :
    AnalyzerRel rewriting (left.checkType point node expected) right := by
  have reported : ∀ actual : String, AnalyzeAlike rewriting
      (fun analyzer => analyzer.report point .typeMismatch
        s!"expected {(left.types.name expected).value}, got {actual}") id :=
    fun _ _ _ befores => befores.report_left lessens point _ _
  unfold Analyzer.checkType
  extract_lets known asked name named
  have first : AnalyzerRel rewriting asked right := { related with }
  have second : AnalyzerRel rewriting named right := { related with }
  split
  · exact first
  · next actual _ =>
      split
      · exact AnalyzerRel.located_left (reported actual) second _
      · exact second

theorem AnalyzerRel.checkType (node : Expr) (expected : ResolvedType) :
    AnalyzerRel rewriting (left.checkType point node expected)
      (right.checkType point (rewriting.expr node) expected) := by
  obtain same | ⟨erased, unknown⟩ := related.static.knownType node
  · have names : right.types.name expected = left.types.name expected :=
      related.static.types.name expected
    unfold Analyzer.checkType
    extract_lets known asked name named known' asked' name' named'
    have first : AnalyzerRel rewriting asked asked' := { related with }
    have second : AnalyzerRel rewriting named named' := { related with }
    have values : known'.value = known.value := same
    have called : name' = name := names
    rw [values, called]
    split
    · exact first
    · next actual _ =>
        split
        · apply AnalyzerRel.located _ second
          intro before before' befores
          exact befores.report point point _ _
        · exact second
  · have unchecked : right.checkType point (rewriting.expr node) expected =
        right.reading (knownType right.toStatic (rewriting.expr node)) := by
      unfold Analyzer.checkType
      extract_lets known asked name named
      have nothing : known.value = none := unknown
      rw [nothing]
    rw [unchecked]
    have checked := related.checkType_left point (lessens_of_erased erased)
      node expected
    exact { checked with }

theorem AnalyzerRel.checkExpected (node : Expr)
    {expected expected' : Option ResolvedType}
    (weakens : rewriting.Weakens expected expected') :
    AnalyzerRel rewriting (left.checkExpected point node expected)
      (right.checkExpected point (rewriting.expr node) expected') := by
  obtain rfl | ⟨erased, rfl⟩ := weakens
  · cases expected' with
    | none => exact related
    | some expected => exact related.checkType point node expected
  · cases expected with
    | none => exact related
    | some expected =>
        exact related.checkType_left point (lessens_of_erased erased) node
          expected

omit related in
theorem StaticRel.lacksMember {static static' : Static}
    (related : StaticRel rewriting static static') (object : Expr)
    (name : String) :
    rewriting.Weakens (Analyzer.lacksMember static object name).value
      (Analyzer.lacksMember static' (rewriting.expr object) name).value := by
  unfold Analyzer.lacksMember
  rw [Read.value_bind, Read.value_bind]
  obtain same | ⟨erased, unknown⟩ := related.knownType object
  · left
    rw [same]
    cases (NetLang.knownType static object).value with
    | none => rfl
    | some known =>
        simp only [related.types.resolve]
        split
        · simp only [related.types.fields, Read.value_bind, Read.value_pure,
            List.any_map]
          rfl
        · rfl
  · rw [unknown]
    exact weakens_none _ erased

theorem AnalyzerRel.checkMember (object : Expr) (name : String) :
    AnalyzerRel rewriting (left.checkMember point object name)
      (right.checkMember point (rewriting.expr object) name) := by
  unfold Analyzer.checkMember
  extract_lets lacking asked lacking' asked'
  have asks : AnalyzerRel rewriting asked asked' := { related with }
  obtain same | ⟨erased, unknown⟩ := related.static.lacksMember object name
  · have values : lacking'.value = lacking.value := same
    rw [values]
    split
    · exact asks.report point point _ _
    · exact asks
  · have nothing : lacking'.value = none := unknown
    rw [nothing]
    split
    · exact asks.report_left (lessens_of_erased erased) point _ _
    · exact asks

/-- Both analyses report when the condition holds. -/
theorem AnalyzerRel.report_if (condition : Prop) [Decidable condition]
    (kind : SemanticErrorKind) (message : String) :
    AnalyzerRel rewriting
      (if condition then left.report point kind message else left)
      (if condition then right.report point kind message else right) := by
  split
  · exact related.report point point kind message
  · exact related

theorem AnalyzerRel.typeFields (name : String) (fields : List TypeField)
    (seen : List String) :
    AnalyzerRel rewriting (Analyzer.typeFields point name fields seen left)
      (Analyzer.typeFields point name (fields.map rewriting.field) seen
        right) := by
  induction fields generalizing left right seen with
  | nil => exact related
  | cons field rest induction =>
      simp only [List.map_cons, Analyzer.typeFields]
      apply induction
      apply AnalyzerRel.resolveType
      exact related.report_if point _ _ _

omit related in
theorem Read.map_bind {α β γ : Type} (read : Read α) (g : α → β)
    (f : β → Read γ) :
    ((do
      let value ← read
      pure (g value)) >>= f) = read >>= fun value => f (g value) := by
  obtain ⟨value, failed⟩ := read
  cases failed <;> rfl

omit related in
theorem TypesAgree.reaches {matching : Matching}
    {types types' : TypeRegistry}
    (agree : TypesAgree rewriting matching types types') (start fuel : Nat)
    (pending seen : List Nat) :
    types'.reaches start fuel pending seen =
      types.reaches start fuel pending seen := by
  induction fuel generalizing pending seen with
  | zero => rfl
  | succ fuel induction =>
      cases pending with
      | nil => rfl
      | cons id pending =>
          simp only [TypeRegistry.reaches, agree.fields]
          split
          · exact induction _ _
          · simp only [Read.map_bind, List.filterMap_map, Function.comp_def,
              Rewriting.field, Rewriting.typeAnnotated_name, agree.resolve,
              induction]

omit related in
theorem TypesAgree.hasRequiredCycle {matching : Matching}
    {types types' : TypeRegistry}
    (agree : TypesAgree rewriting matching types types') (name : String) :
    types'.hasRequiredCycle name = types.hasRequiredCycle name := by
  have fuel : types'.searchFuel = types.searchFuel := by
    simp only [TypeRegistry.searchFuel, agree.definitions, List.map_map,
      Function.comp_def, List.length_map]
  unfold TypeRegistry.hasRequiredCycle
  simp only [agree.resolve, agree.reaches, fuel]

theorem AnalyzerRel.typeDeclaration (name : String)
    (fields : List TypeField) :
    AnalyzerRel rewriting (left.typeDeclaration point name fields)
      (right.typeDeclaration point name (fields.map rewriting.field)) := by
  have misplaced : AnalyzerRel rewriting
      (if left.scopes.depth ≠ 2 ∨ left.functionDepth ≠ 0 then
        left.report point .invalidTypeDeclaration
          "type declarations are only supported at top level"
      else left)
      (if right.scopes.depth ≠ 2 ∨ right.functionDepth ≠ 0 then
        right.report point .invalidTypeDeclaration
          "type declarations are only supported at top level"
      else right) := by
    have depth : right.scopes.depth = left.scopes.depth :=
      related.static.scopes.length_eq.symm
    rw [depth, related.static.functionDepth]
    exact related.report_if point _ _ _
  have reserved := misplaced.report_if point (Analyzer.isReservedType name)
    .invalidTypeDeclaration s!"type name '{name}' is reserved"
  unfold Analyzer.typeDeclaration
  extract_lets placed named declared fielded cycle searched placed' named'
    declared' fielded' cycle' searched'
  have declareds : AnalyzerRel rewriting declared declared' := by
    have known : named'.declaredTypes = named.declaredTypes :=
      reserved.declaredTypes
    unfold declared declared'
    rw [known]
    split
    · exact reserved.report point point _ _
    · exact { reserved with
        declaredTypes := rfl }
  have fieldeds : AnalyzerRel rewriting fielded fielded' :=
    declareds.typeFields point name fields []
  have cycles : cycle' = cycle :=
    fieldeds.static.types.hasRequiredCycle name
  have searches : AnalyzerRel rewriting searched searched' :=
    { fieldeds with }
  rw [cycles]
  exact searches.report_if point _ _ _

end Checks

end NetLang
