import NetLang.Parser.Total
import NetLang.Syntax.Rewrite

/-!
# Parsing with and without locations

A parser that keeps locations and one that does not read the same tokens and
make the same decisions.  What the first one returns is what the second one
returns, once its locations are removed.
-/

namespace NetLang

open Parse

variable {α β γ δ : Type}

/-- The same parser without locations. -/
def Parser.bare (parser : Parser) : Parser :=
  { parser with spans := false }

/-- The second parser's end is the image of the first one's, which may also
panic. -/
def EndsMatch (image : α → β) :
    Except Failure (α × Parser) → Except Failure (β × Parser) → Prop
  | .error .panic, _ => True
  | .error failure, .error failure' => failure' = failure
  | .ok result, .ok result' => result'.1 = image result.1 ∧
      result.2.spans = true ∧ result'.2 = result.2.bare
  | _, _ => False

def Matches (image : α → β) (left : Parse α) (right : Parse β) : Prop :=
  ∀ parser, parser.spans = true →
    EndsMatch image (left parser) (right parser.bare)

section Rules

variable {image : α → β} {after : γ → δ} {left : Parse α} {right : Parse β}

theorem matches_pure (value : α) :
    Matches image (pure value) (pure (image value)) :=
  fun _ located => ⟨rfl, located, rfl⟩

theorem matches_stop (failure : Failure) :
    Matches image (stop failure) (stop failure) := by
  intro parser _
  cases failure with
  | error error => exact rfl
  | panic => trivial
  | outOfFuel => exact rfl

theorem Matches.bind {next : α → Parse γ} {next' : β → Parse δ}
    (same : Matches image left right)
    (rest : ∀ value, Matches after (next value) (next' (image value))) :
    Matches after (left >>= next) (right >>= next') := by
  intro parser located
  have ends := same parser located
  simp only [run_bind, Parse.bind]
  cases done : left parser with
  | error failure =>
      rw [done] at ends
      cases failure with
      | panic => trivial
      | error error =>
          cases done' : right parser.bare with
          | ok result => rw [done'] at ends; exact ends.elim
          | error failure' => rw [done'] at ends; exact ends
      | outOfFuel =>
          cases done' : right parser.bare with
          | ok result => rw [done'] at ends; exact ends.elim
          | error failure' => rw [done'] at ends; exact ends
  | ok result =>
      rw [done] at ends
      cases done' : right parser.bare with
      | error failure =>
          rw [done'] at ends
          exact ends.elim
      | ok result' =>
          rw [done'] at ends
          obtain ⟨value, there, bare⟩ := ends
          dsimp only
          rw [value, bare]
          exact rest result.1 result.2 there

/-- Both computations end with the same value. -/
abbrev Same (left right : Parse α) : Prop :=
  Matches id left right

theorem same_peek : Same peek peek := by
  rintro ⟨past, rest, spans, constructors⟩ located
  cases rest with
  | nil => trivial
  | cons token rest => exact ⟨rfl, located, rfl⟩

theorem same_previous : Same previous previous := by
  rintro ⟨past, rest, spans, constructors⟩ located
  cases past with
  | nil => trivial
  | cons token past => exact ⟨rfl, located, rfl⟩

theorem same_advance : Same advance advance := by
  rintro ⟨past, rest, spans, constructors⟩ located
  cases rest with
  | nil => trivial
  | cons token rest =>
      simp only [advance, Parser.bare]
      by_cases isEof : token.kind = .eof
      · rw [if_pos isEof, if_pos isEof]
        exact ⟨rfl, located, rfl⟩
      · rw [if_neg isEof, if_neg isEof]
        exact ⟨rfl, located, rfl⟩

theorem same_constructors : Same constructors constructors :=
  fun _ located => ⟨rfl, located, rfl⟩

theorem same_start : Same start start :=
  same_peek.bind fun token => matches_pure token.span.start

theorem same_check (kind : TokenKind) : Same (check kind) (check kind) :=
  same_peek.bind fun _ => matches_pure _

theorem matches_if {condition : Prop} [Decidable condition]
    {other : Parse α} {other' : Parse β}
    (yes : Matches image left right) (no : Matches image other other') :
    Matches image (if condition then left else other)
      (if condition then right else other') := by
  split
  · exact yes
  · exact no

theorem same_accept (kind : TokenKind) : Same (accept kind) (accept kind) := by
  apply (same_check kind).bind
  intro found
  apply matches_if
  · exact same_advance.bind fun _ => matches_pure _
  · exact matches_pure _

theorem matches_errorAt (token : Token) (message : String) :
    Matches image (errorAt token message) (errorAt token message) :=
  matches_stop _

theorem matches_error (message : String) :
    Matches image (error message) (error message) :=
  same_peek.bind fun token => matches_errorAt token message

theorem same_consume (kind : TokenKind) (message : String) :
    Same (consume kind message) (consume kind message) := by
  apply (same_check kind).bind
  intro found
  exact matches_if same_advance (matches_error message)

theorem same_literal (token : Token) (value : Except String α) :
    Same (literal token value) (literal token value) := by
  cases value with
  | ok value => exact matches_pure value
  | error message => exact matches_errorAt token message

/-- Only a parser that keeps locations asks where it stands. -/
theorem matches_spans {next next' : Bool → Parse α} {image : α → α}
    (rest : Matches image (next true) (next' false)) :
    Matches image (spans >>= next) (spans >>= next') := by
  intro parser located
  simp only [run_bind, Parse.bind, spans, located, Parser.bare]
  exact rest parser located

theorem Matches.delimited {constructors : Bool}
    (same : Matches image left right) :
    Matches image (delimited constructors left)
      (delimited constructors right) := by
  intro parser located
  have ends := same { parser with constructors := constructors } located
  have moved : { parser.bare with constructors := constructors } =
      { parser with constructors := constructors }.bare := rfl
  unfold Parse.delimited
  rw [moved]
  cases done : left { parser with constructors := constructors } with
  | error failure =>
      rw [done] at ends
      cases failure with
      | panic => trivial
      | error error =>
          cases done' : right { parser with constructors := constructors }.bare
            with
          | ok result => rw [done'] at ends; exact ends.elim
          | error failure' => rw [done'] at ends; exact ends
      | outOfFuel =>
          cases done' : right { parser with constructors := constructors }.bare
            with
          | ok result => rw [done'] at ends; exact ends.elim
          | error failure' => rw [done'] at ends; exact ends
  | ok result =>
      rw [done] at ends
      cases done' : right { parser with constructors := constructors }.bare
        with
      | error failure =>
          rw [done'] at ends
          exact ends.elim
      | ok result' =>
          rw [done'] at ends
          obtain ⟨value, there, bare⟩ := ends
          refine ⟨value, there, ?_⟩
          dsimp only
          rw [bare]
          rfl

theorem Matches.repeated {loop : Nat → Parse α} {loop' : Nat → Parse β}
    (same : ∀ fuel, Matches image (loop fuel) (loop' fuel)) :
    Matches image (repeated loop) (repeated loop') :=
  fun parser located => same parser.rest.length parser located

theorem Matches.items {closing : TokenKind}
    (same : Matches image left right) :
    Matches (List.map image) (items left closing) (items right closing) := by
  have loop : ∀ fuel, Matches (List.map image) (itemsLoop left closing fuel)
      (itemsLoop right closing fuel) := by
    intro fuel
    induction fuel with
    | zero => exact matches_stop _
    | succ fuel induction =>
        apply same.bind
        intro value
        apply (same_accept .comma).bind
        intro more
        apply (same_check closing).bind
        intro closed
        apply matches_if
        · exact induction.bind fun values => matches_pure (value :: values)
        · exact matches_pure [value]
  apply (same_check closing).bind
  intro closed
  exact matches_if (matches_pure []) (.repeated loop)

theorem Matches.untilClosed {closing : TokenKind}
    (same : Matches image left right) :
    Matches (List.map image) (untilClosed left closing)
      (untilClosed right closing) := by
  apply Matches.repeated
  intro fuel
  induction fuel with
  | zero => exact matches_stop _
  | succ fuel induction =>
      apply (same_check closing).bind
      intro closed
      apply (same_check .eof).bind
      intro ended
      apply matches_if
      · exact matches_pure []
      · apply same.bind
        intro value
        exact induction.bind fun values => matches_pure (value :: values)

/-- The same value under another image. -/
theorem Matches.congr {image' : α → β} (same : Matches image left right)
    (equal : ∀ value, image value = image' value) :
    Matches image' left right := by
  have images : image = image' := funext equal
  exact images ▸ same

end Rules

/-- Nested entry points that parse with and without locations alike. -/
structure GrammarMatches (given : Grammar) : Prop where
  assignment : Matches stripping.expr given.assignment given.assignment
  or : Matches stripping.expr given.or given.or
  unary : Matches stripping.expr given.unary given.unary
  declaration : Matches stripping.stmt given.declaration given.declaration
  «if» : Matches stripping.stmt given.if given.if

section Expressions

theorem stripping_bare (node : Expr) :
    stripping.expr node.bare = stripping.expr node := by
  cases node <;> rfl

/-- A location is added on one side only. -/
theorem matches_locate (node : Expr) (start start' : Position) :
    Matches stripping.expr (locateExpression node start)
      (locateExpression (stripping.expr node) start') := by
  apply matches_spans
  intro parser located
  rw [if_pos rfl, if_neg Bool.false_ne_true]
  simp only [run_bind, Parse.bind]
  cases done : previous parser with
  | error failure =>
      unfold previous at done
      split at done
      · cases done
        trivial
      · cases done
  | ok result =>
      unfold previous at done
      split at done
      · cases done
      · cases done
        exact ⟨(stripping_bare node).symm, located, rfl⟩

variable {given : Grammar} (nested : GrammarMatches given)

include nested

theorem matches_delimited (constructors : Bool) :
    Matches stripping.expr (parseDelimitedExpression given constructors)
      (parseDelimitedExpression given constructors) :=
  nested.assignment.delimited

theorem matches_expressionList (closing : TokenKind) :
    Matches (List.map stripping.expr) (expressionList given closing)
      (expressionList given closing) := by
  apply (matches_delimited nested true).items.bind
  intro values
  exact (same_consume _ _).bind fun _ => matches_pure values

omit nested in
theorem same_objectKey : Same objectKey objectKey := by
  apply same_advance.bind
  intro key
  dsimp only [id]
  split
  · exact matches_pure _
  · exact same_literal _ _
  · exact matches_errorAt _ _

/-- A field without the locations in its value. -/
def strippedField (field : String × Expr) : String × Expr :=
  (field.1, stripping.expr field.2)

theorem matches_objectField :
    Matches strippedField (objectField given) (objectField given) := by
  apply same_objectKey.bind
  intro key
  apply (same_consume _ _).bind
  intro _
  apply (matches_delimited nested true).bind
  exact fun value => matches_pure (key, value)

theorem matches_objectFields :
    Matches (List.map strippedField) (parseObjectFields given)
      (parseObjectFields given) := by
  apply (matches_objectField nested).items.bind
  intro fields
  exact (same_consume _ _).bind fun _ => matches_pure fields

omit nested in
theorem fieldList_eq_map (fields : List (String × Expr)) :
    stripping.fieldList fields = fields.map strippedField := by
  induction fields with
  | nil => rfl
  | cons field rest induction =>
      simp only [Rewriting.fieldList, induction, List.map_cons]
      rfl

theorem matches_object :
    Matches stripping.expr (parseObject given) (parseObject given) := by
  apply same_previous.bind
  intro brace
  apply (matches_objectFields nested).bind
  intro fields
  rw [← fieldList_eq_map]
  exact matches_locate (.object fields) _ _

omit nested in
theorem same_protocol : Same connectionProtocol connectionProtocol := by
  apply (same_accept .using).bind
  intro named
  apply matches_if
  · exact (same_consume _ _).bind fun name => matches_pure (some name.lexeme)
  · exact matches_pure none

theorem matches_connection (transport : Transport) :
    Matches stripping.expr (parseConnectionExpression given transport)
      (parseConnectionExpression given transport) := by
  apply nested.or.delimited.bind
  intro address
  apply same_protocol.bind
  exact fun protocol => matches_pure (Expr.connection transport address protocol)

theorem matches_config :
    Matches stripping.exprOption (requestConfig given)
      (requestConfig given) := by
  apply (same_accept .leftBrace).bind
  intro configured
  apply matches_if
  · exact (matches_object nested).bind fun config =>
      matches_pure (some config)
  · exact matches_pure none

theorem matches_request (kind : TokenKind) :
    Matches stripping.expr (parseRequestExpression given kind)
      (parseRequestExpression given kind) := by
  unfold parseRequestExpression
  cases requestMethod kind with
  | none => exact matches_stop _
  | some method =>
      apply (matches_delimited nested false).bind
      intro url
      apply (matches_config nested).bind
      exact fun config => matches_pure (Expr.request method url config)

theorem matches_name (name : String) :
    Matches stripping.expr (parseName given name) (parseName given name) := by
  apply same_constructors.bind
  intro allowed
  apply matches_if
  · apply (same_accept .leftBrace).bind
    intro braced
    apply matches_if
    · apply (matches_objectFields nested).bind
      intro fields
      rw [← fieldList_eq_map]
      exact matches_pure (Expr.construct name fields)
    · exact matches_pure (Expr.identifier name)
  · exact matches_pure (Expr.identifier name)

theorem matches_parenthesized :
    Matches stripping.expr (parseParenthesized given)
      (parseParenthesized given) := by
  apply (matches_delimited nested true).bind
  intro inner
  exact (same_consume _ _).bind fun _ => matches_pure inner

omit nested in
theorem matches_literal (token : Token) {node : α → Expr}
    (atom : ∀ value, stripping.expr (node value) = node value)
    (value : Except String α) :
    Matches stripping.expr (parseLiteral token node value)
      (parseLiteral token node value) := by
  apply (same_literal token value).bind
  intro value
  have bare : Matches stripping.expr (pure (node value))
      (pure (stripping.expr (node value))) :=
    matches_pure (node value)
  rw [atom] at bare
  exact bare

theorem matches_primaryInner :
    Matches stripping.expr (parsePrimaryInner given)
      (parsePrimaryInner given) := by
  apply same_advance.bind
  intro token
  dsimp only [id]
  split
  · exact matches_connection nested _
  · exact matches_connection nested _
  · exact matches_request nested _
  · exact matches_request nested _
  · exact matches_request nested _
  · exact matches_request nested _
  · exact matches_request nested _
  · exact matches_request nested _
  · exact matches_literal token (fun _ => rfl) _
  · exact matches_literal token (fun _ => rfl) _
  · exact matches_literal token (fun _ => rfl) _
  · exact matches_pure (Expr.boolean true)
  · exact matches_pure (Expr.boolean false)
  · exact matches_pure Expr.null
  · exact matches_name nested _
  · exact matches_literal token (fun _ => rfl) _
  · exact matches_parenthesized nested
  · apply (matches_expressionList nested .rightBracket).bind
    intro values
    rw [← stripping.exprList_eq_map]
    exact matches_pure (Expr.array values)
  · exact matches_object nested
  · exact matches_errorAt _ _

theorem matches_primary :
    Matches stripping.expr (parsePrimary given) (parsePrimary given) := by
  apply same_start.bind
  intro start
  apply (matches_primaryInner nested).bind
  exact fun node => matches_locate node _ _

theorem matches_postfixOperator (operand : Expr) :
    Matches stripping.exprOption (postfixOperator given operand)
      (postfixOperator given (stripping.expr operand)) := by
  apply (same_accept .leftParen).bind
  intro called
  apply matches_if
  · apply (matches_expressionList nested .rightParen).bind
    intro values
    rw [← stripping.exprList_eq_map]
    exact matches_pure (some (Expr.call operand values))
  · apply (same_accept .leftBracket).bind
    intro indexed
    apply matches_if
    · apply (matches_delimited nested true).bind
      intro index
      apply (same_consume _ _).bind
      exact fun _ => matches_pure (some (Expr.index operand index))
    · apply (same_accept .receive).bind
      intro received
      apply matches_if
      · exact matches_pure (some (Expr.receive operand))
      · apply (same_accept .dot).bind
        intro dotted
        apply matches_if
        · apply (same_consume _ _).bind
          exact fun name => matches_pure (some (Expr.property operand name.lexeme))
        · exact matches_pure none

theorem matches_postfixLoop (start : Position) (fuel : Nat) :
    ∀ operand : Expr, Matches stripping.expr
      (postfixLoop given start fuel operand)
      (postfixLoop given start fuel (stripping.expr operand)) := by
  induction fuel with
  | zero => exact fun _ => matches_stop _
  | succ fuel induction =>
      intro operand
      apply (matches_postfixOperator nested operand).bind
      intro next
      cases next with
      | none => exact matches_pure operand
      | some node =>
          apply (matches_locate node start start).bind
          exact induction

theorem matches_postfix :
    Matches stripping.expr (parsePostfix given) (parsePostfix given) := by
  apply same_start.bind
  intro start
  apply (matches_primary nested).bind
  intro operand
  apply Matches.repeated
  exact fun fuel => matches_postfixLoop nested start (fuel + 1) operand

theorem matches_unary :
    Matches stripping.expr (parseUnary given) (parseUnary given) := by
  apply same_start.bind
  intro start
  apply same_peek.bind
  intro token
  dsimp only [id]
  cases unaryOperator token.kind with
  | some operator =>
      apply same_advance.bind
      intro _
      apply nested.unary.bind
      exact fun operand => matches_locate (.unary operator operand) _ _
  | none => exact matches_postfix nested

omit nested in
theorem same_nextOperator (operators : List (TokenKind × BinaryOp)) :
    Same (nextOperator operators) (nextOperator operators) := by
  apply same_peek.bind
  intro token
  dsimp only [id]
  cases operators.find? fun entry => entry.1 = token.kind with
  | none => exact matches_pure none
  | some entry => exact same_advance.bind fun _ => matches_pure (some entry.2)

omit nested in
theorem matches_binary {operand : Parse Expr}
    {operators : List (TokenKind × BinaryOp)}
    (same : Matches stripping.expr operand operand) :
    Matches stripping.expr (parseBinary operand operators)
      (parseBinary operand operators) := by
  have loop : ∀ (start : Position) (fuel : Nat) (left : Expr),
      Matches stripping.expr (binaryLoop operand operators start fuel left)
        (binaryLoop operand operators start fuel (stripping.expr left)) := by
    intro start fuel
    induction fuel with
    | zero => exact fun _ => matches_stop _
    | succ fuel induction =>
        intro left
        apply (same_nextOperator operators).bind
        intro next
        cases next with
        | none => exact matches_pure left
        | some operator =>
            apply same.bind
            intro right
            apply (matches_locate (.binary left operator right) start
              start).bind
            exact induction
  apply same_start.bind
  intro start
  apply same.bind
  intro left
  apply Matches.repeated
  exact fun fuel => loop start (fuel + 1) left

theorem matches_or :
    Matches stripping.expr (parseOr given) (parseOr given) :=
  matches_binary <| matches_binary <| matches_binary <| matches_binary <|
    matches_binary <| matches_binary <| matches_unary nested

theorem matches_destination :
    Matches stripping.exprOption (sendDestinationClause given)
      (sendDestinationClause given) := by
  apply (same_accept .to).bind
  intro addressed
  apply matches_if
  · exact (matches_or nested).bind fun destination =>
      matches_pure (some destination)
  · exact matches_pure none

theorem matches_send :
    Matches stripping.expr (parseSend given) (parseSend given) := by
  apply same_start.bind
  intro start
  apply (matches_or nested).bind
  intro connection
  apply (same_accept .send).bind
  intro sends
  apply matches_if
  · apply (matches_or nested).bind
    intro data
    apply (matches_destination nested).bind
    intro destination
    apply (same_check .send).bind
    intro chained
    apply matches_if
    · exact matches_error _
    · exact matches_locate (.send connection data destination) _ _
  · exact matches_pure connection

omit nested in
/-- Whether a node may be assigned does not depend on its location. -/
theorem isTarget_stripping (node : Expr) :
    (stripping.expr node).unspanned.isTarget = node.unspanned.isTarget := by
  have unlocated : ∀ node : Expr, (∀ span inner, node ≠ .located span inner) →
      (stripping.expr node).isTarget = node.isTarget := by
    intro node other
    cases node with
    | located span inner => exact absurd rfl (other span inner)
    | _ => rfl
  rw [stripping.expr_unspanned]
  exact unlocated _ (Expr.unspanned_ne_located node)

theorem matches_assignment :
    Matches stripping.expr (parseAssignment given)
      (parseAssignment given) := by
  apply same_start.bind
  intro start
  apply (matches_send nested).bind
  intro target
  apply (same_accept .equal).bind
  intro assigns
  rw [isTarget_stripping]
  apply matches_if
  · apply matches_if
    · apply nested.assignment.bind
      exact fun value => matches_locate (.assignment target value) _ _
    · apply same_previous.bind
      exact fun sign => matches_errorAt _ _
  · exact matches_pure target

end Expressions

section Statements

/-- A type name has a location on one side only. -/
theorem matches_typeName :
    Matches stripping.typeAnnotated parseTypeName parseTypeName := by
  apply (same_consume _ _).bind
  intro token
  exact matches_spans (matches_pure (⟨_, some _⟩ : TypeAnnotation))

theorem matches_annotation :
    Matches stripping.optional parseAnnotation parseAnnotation := by
  apply (same_accept .colon).bind
  intro annotated
  apply matches_if
  · exact matches_typeName.bind fun name => matches_pure (some name)
  · exact matches_pure none

theorem matches_typeField :
    Matches stripping.field typeField typeField := by
  apply (same_consume _ _).bind
  intro name
  apply (same_consume _ _).bind
  intro _
  apply matches_typeName.bind
  exact fun annotated => matches_pure (TypeField.mk name.lexeme annotated)

theorem matches_type : Matches stripping.stmt parseType parseType := by
  apply (same_consume _ _).bind
  intro name
  apply (same_consume _ _).bind
  intro _
  apply matches_typeField.items.bind
  intro fields
  apply (same_consume _ _).bind
  exact fun _ => matches_pure (Stmt.type name.lexeme fields)

theorem matches_parameter :
    Matches stripping.parameter parameterItem parameterItem := by
  apply (same_consume _ _).bind
  intro name
  apply matches_annotation.bind
  exact fun annotated => matches_pure (Parameter.mk name.lexeme annotated)

theorem matches_returnAnnotation :
    Matches stripping.optional returnAnnotation returnAnnotation := by
  apply (same_accept .arrow).bind
  intro annotated
  apply matches_if
  · exact matches_typeName.bind fun name => matches_pure (some name)
  · exact matches_pure none

theorem same_pattern (token : Token) :
    Matches stripping.pattern (parsePattern token) (parsePattern token) := by
  unfold parsePattern
  split
  · apply (same_literal _ _).bind
    exact fun value => matches_pure (Pattern.integer value)
  · apply (same_literal _ _).bind
    exact fun value => matches_pure (Pattern.string value)
  · exact matches_pure (Pattern.boolean true)
  · exact matches_pure (Pattern.boolean false)
  · exact matches_pure Pattern.null
  · apply matches_if
    · exact matches_pure Pattern.wildcard
    · exact matches_errorAt _ _
  · exact matches_errorAt _ _

theorem matches_locatePattern (token : Token) (pattern : Pattern) :
    Matches stripping.pattern (locatePattern token pattern)
      (locatePattern token (stripping.pattern pattern)) :=
  matches_spans (matches_pure (Pattern.located token.span pattern))

theorem matches_control {node : Stmt} (atom : stripping.stmt node = node) :
    Matches stripping.stmt (parseControl node) (parseControl node) := by
  apply (same_consume _ _).bind
  intro _
  have bare : Matches stripping.stmt (pure node)
      (pure (stripping.stmt node)) :=
    matches_pure node
  rw [atom] at bare
  exact bare

variable {given : Grammar} (nested : GrammarMatches given)

include nested

theorem matches_block :
    Matches stripping.stmt (parseBlock given) (parseBlock given) := by
  apply (same_consume _ _).bind
  intro _
  apply nested.declaration.untilClosed.bind
  intro statements
  rw [← stripping.stmtList_eq_map]
  apply (same_consume _ _).bind
  exact fun _ => matches_pure (Stmt.block statements)

theorem matches_function :
    Matches stripping.stmt (parseFunction given) (parseFunction given) := by
  apply (same_consume _ _).bind
  intro name
  apply (same_consume _ _).bind
  intro _
  apply matches_parameter.items.bind
  intro parameters
  apply (same_consume _ _).bind
  intro _
  apply matches_returnAnnotation.bind
  intro returnAnnotated
  apply (matches_block nested).bind
  exact fun body => matches_pure
    (Stmt.function name.lexeme parameters returnAnnotated body)

theorem matches_let :
    Matches stripping.stmt (parseLet given) (parseLet given) := by
  apply (same_consume _ _).bind
  intro name
  apply matches_annotation.bind
  intro annotated
  apply (same_consume _ _).bind
  intro _
  apply nested.assignment.bind
  intro value
  apply (same_consume _ _).bind
  exact fun _ => matches_pure (Stmt.let name.lexeme annotated value)

/-- An arm without the locations in its pattern and its body. -/
def strippedArm (arm : Pattern × Stmt) : Pattern × Stmt :=
  (stripping.pattern arm.1, stripping.stmt arm.2)

theorem matches_matchArm :
    Matches strippedArm (matchArm given) (matchArm given) := by
  apply same_advance.bind
  intro token
  apply (same_pattern token).bind
  intro pattern
  apply (matches_locatePattern token pattern).bind
  intro pattern
  apply (same_consume _ _).bind
  intro _
  apply (matches_block nested).bind
  exact fun body => matches_pure (pattern, body)

omit nested in
theorem armList_eq_map (arms : List (Pattern × Stmt)) :
    stripping.armList arms = arms.map strippedArm := by
  induction arms with
  | nil => rfl
  | cons arm rest induction =>
      simp only [Rewriting.armList, induction, List.map_cons]
      rfl

theorem matches_match :
    Matches stripping.stmt (parseMatch given) (parseMatch given) := by
  apply (matches_delimited nested false).bind
  intro expression
  apply (same_consume _ _).bind
  intro _
  apply (matches_matchArm nested).untilClosed.bind
  intro arms
  rw [← armList_eq_map]
  apply (same_consume _ _).bind
  exact fun _ => matches_pure (Stmt.match expression arms)

theorem matches_elseBranch :
    Matches stripping.stmtOption (elseBranch given) (elseBranch given) := by
  apply (same_accept .else).bind
  intro otherwise
  apply matches_if
  · apply (same_accept .if).bind
    intro chained
    apply matches_if
    · exact nested.if.bind fun branch => matches_pure (some branch)
    · exact (matches_block nested).bind fun branch =>
        matches_pure (some branch)
  · exact matches_pure none

theorem matches_ifStatement :
    Matches stripping.stmt (parseIf given) (parseIf given) := by
  apply (matches_delimited nested false).bind
  intro condition
  apply (matches_block nested).bind
  intro thenBranch
  apply (matches_elseBranch nested).bind
  exact fun branch => matches_pure (Stmt.if condition thenBranch branch)

theorem matches_while :
    Matches stripping.stmt (parseWhile given) (parseWhile given) := by
  apply (matches_delimited nested false).bind
  intro condition
  apply (matches_block nested).bind
  exact fun body => matches_pure (Stmt.while condition body)

theorem matches_loop {loop : String → Expr → Stmt → Stmt}
    (commutes : ∀ name iterable body,
      stripping.stmt (loop name iterable body) =
        loop name (stripping.expr iterable) (stripping.stmt body)) :
    Matches stripping.stmt (parseLoop given loop) (parseLoop given loop) := by
  apply (same_consume _ _).bind
  intro name
  apply (same_consume _ _).bind
  intro _
  apply (matches_delimited nested false).bind
  intro iterable
  apply (matches_block nested).bind
  intro body
  have bare : Matches stripping.stmt (pure (loop name.lexeme iterable body))
      (pure (stripping.stmt (loop name.lexeme iterable body))) :=
    matches_pure (loop name.lexeme iterable body)
  rw [commutes] at bare
  exact bare

theorem matches_return :
    Matches stripping.stmt (parseReturn given) (parseReturn given) := by
  have value : Matches stripping.exprOption (returnedExpression given)
      (returnedExpression given) := by
    apply (same_check .semicolon).bind
    intro nothing
    apply matches_if
    · exact matches_pure none
    · exact nested.assignment.bind fun value => matches_pure (some value)
  apply value.bind
  intro value
  apply (same_consume _ _).bind
  exact fun _ => matches_pure (Stmt.return value)

theorem matches_expressionStatement :
    Matches stripping.stmt (parseExpressionStatement given)
      (parseExpressionStatement given) := by
  apply (matches_assignment nested).bind
  intro expression
  apply (same_consume _ _).bind
  exact fun _ => matches_pure (Stmt.expression expression)

theorem matches_declarationInner :
    Matches stripping.stmt (parseDeclarationInner given)
      (parseDeclarationInner given) := by
  apply same_peek.bind
  intro token
  dsimp only [id]
  split
  · exact same_advance.bind fun _ => matches_type
  · exact same_advance.bind fun _ => matches_function nested
  · exact same_advance.bind fun _ => matches_let nested
  · exact same_advance.bind fun _ => matches_control rfl
  · exact same_advance.bind fun _ => matches_control rfl
  · exact matches_block nested
  · exact same_advance.bind fun _ => matches_ifStatement nested
  · exact same_advance.bind fun _ => matches_while nested
  · exact same_advance.bind fun _ => matches_match nested
  · exact same_advance.bind fun _ => matches_loop nested fun _ _ _ => rfl
  · exact same_advance.bind fun _ => matches_loop nested fun _ _ _ => rfl
  · exact same_advance.bind fun _ => matches_return nested
  · exact matches_expressionStatement nested

theorem matches_declaration :
    Matches stripping.stmt (parseDeclaration given)
      (parseDeclaration given) := by
  apply same_start.bind
  intro start
  apply (matches_declarationInner nested).bind
  intro node
  apply matches_spans
  intro parser located
  rw [if_pos rfl, if_neg Bool.false_ne_true]
  simp only [run_bind, Parse.bind]
  cases done : previous parser with
  | error failure =>
      unfold previous at done
      split at done
      · cases done
        trivial
      · cases done
  | ok result =>
      unfold previous at done
      split at done
      · cases done
      · cases done
        exact ⟨rfl, located, rfl⟩

theorem GrammarMatches.step : GrammarMatches given.step where
  assignment := matches_assignment nested
  or := matches_or nested
  unary := matches_unary nested
  declaration := matches_declaration nested
  «if» := matches_ifStatement nested

end Statements

theorem grammarMatches : ∀ fuel, GrammarMatches (grammar fuel)
  | 0 => ⟨matches_stop _, matches_stop _, matches_stop _, matches_stop _,
      matches_stop _⟩
  | fuel + 1 => (grammarMatches fuel).step

/-- Both parsers report the same error, or the trees they return are the same
up to locations. -/
def AgreeUpTo (strip : α → α) (located bare : Except Failure α) : Prop :=
  (∃ error, located = .error (.error error) ∧ bare = .error (.error error)) ∨
    ∃ tree, located = .ok tree ∧ bare = .ok (strip tree)

theorem agree_of_matches {tokens : List Token} {strip : α → α}
    {parse : Parse α} {parser : Parser} (same : Matches strip parse parse)
    (located : parser.spans = true)
    (ends : ParsesOrFails tokens ((parse parser).map Prod.fst)) :
    AgreeUpTo strip ((parse parser).map Prod.fst)
      ((parse parser.bare).map Prod.fst) := by
  have matched := same parser located
  cases done : parse parser with
  | error failure =>
      rw [done] at matched ends
      cases failure with
      | error error =>
          cases done' : parse parser.bare with
          | ok result => rw [done'] at matched; exact matched.elim
          | error failure' =>
              rw [done'] at matched
              cases (matched : failure' = .error error)
              exact .inl ⟨error, rfl, rfl⟩
      | panic => simp [ParsesOrFails, Except.map] at ends
      | outOfFuel => simp [ParsesOrFails, Except.map] at ends
  | ok result =>
      rw [done] at matched
      cases done' : parse parser.bare with
      | error failure => rw [done'] at matched; exact matched.elim
      | ok result' =>
          rw [done'] at matched
          refine .inr ⟨result.1, rfl, ?_⟩
          exact congrArg Except.ok matched.1

/-- Parsing with locations is parsing without them plus metadata. -/
theorem located_parse_agrees (tokens : List Token) :
    ∀ parser, Parser.new tokens = .ok parser →
      AgreeUpTo Program.strip parser.withSpans.parseProgram
        parser.parseProgram ∧
      AgreeUpTo stripping.expr parser.withSpans.parseExpressionComplete
        parser.parseExpressionComplete := by
  intro parser made
  obtain ⟨single, rfl⟩ := new_ok_iff.mp made
  have ends := (parser_total tokens).2 _ made true
  have nested := grammarMatches (tokens.length + 1)
  have program : Matches Program.strip
      (parseProgram (grammar (tokens.length + 1)))
      (parseProgram (grammar (tokens.length + 1))) := by
    apply nested.declaration.untilClosed.bind
    intro statements
    rw [← stripping.stmtList_eq_map]
    exact matches_pure (Program.mk statements)
  have expression : Matches stripping.expr
      (parseExpressionComplete (grammar (tokens.length + 1)))
      (parseExpressionComplete (grammar (tokens.length + 1))) := by
    apply nested.assignment.bind
    intro node
    exact (same_consume _ _).bind fun _ => matches_pure node
  exact ⟨agree_of_matches program rfl ends.1,
    agree_of_matches expression rfl ends.2⟩

/-- `let x: bool = true; x = null; match x { true => { } _ => { x; } }` -/
theorem located_parse_agrees_match :
    let token : TokenKind → String → Nat → Token := fun kind lexeme column =>
      ⟨kind, lexeme, 1, column⟩
    let last : Token := token .eof "" 67
    let source : List Token := [token .let "let" 1, token .identifier "x" 5,
      token .colon ":" 6, token .identifier "bool" 8, token .equal "=" 13,
      token .true "true" 15, token .semicolon ";" 19, token .identifier "x" 21,
      token .equal "=" 23, token .null "null" 25, token .semicolon ";" 29,
      token .match "match" 31, token .identifier "x" 37,
      token .leftBrace "\x7b" 39, token .true "true" 41,
      token .fatArrow "=>" 46, token .leftBrace "\x7b" 49,
      token .rightBrace "\x7d" 51, token .identifier "_" 53,
      token .fatArrow "=>" 55, token .leftBrace "\x7b" 58,
      token .identifier "x" 60, token .semicolon ";" 61,
      token .rightBrace "\x7d" 63, token .rightBrace "\x7d" 65]
    let parser : Parser := ⟨[], source ++ [last], false, true⟩
    AgreeUpTo Program.strip parser.withSpans.parseProgram
      parser.parseProgram ∧
    parser.parseProgram.toOption.map (fun program =>
      program.statements.length) = some 3 := by
  intro token last source parser
  exact ⟨((located_parse_agrees (source ++ [last])) parser rfl).1,
    by decide +kernel⟩

end NetLang
