import NetLang.Lexer.Spacing
import NetLang.Parser.Located

/-!
# Parsing does not depend on the places of tokens

A parser without locations looks at the kinds and the lexemes of its tokens
only.  It returns the same tree, or stops with the same message, when the
tokens stand elsewhere.  There is one lemma for each function of the parser.
-/

namespace NetLang

open Parse

variable {α β γ δ : Type}

section Places

/-- A token whose place nobody kept. -/
def Token.unplaced (token : Token) : Token :=
  ⟨token.kind, token.lexeme, 0, 0⟩

theorem unplaced_of_spelled {tokens tokens' : List Token}
    (same : tokens'.map Token.spelled = tokens.map Token.spelled) :
    tokens'.map Token.unplaced = tokens.map Token.unplaced := by
  have factor : Token.unplaced =
      (fun spelled => ⟨spelled.1, spelled.2, 0, 0⟩) ∘ Token.spelled := rfl
  rw [factor, ← List.map_map, ← List.map_map, same]

def Parser.unplaced (parser : Parser) : Parser :=
  { parser with
    past := parser.past.map Token.unplaced
    rest := parser.rest.map Token.unplaced }

/-- Only the message of an error is kept. -/
def ParseError.unplaced (error : ParseError) : ParseError :=
  ⟨error.message, 0, 0, .point 0 0⟩

def Failure.unplaced : Failure → Failure
  | .error reported => .error reported.unplaced
  | failure => failure

end Places

/-- Two parsers end alike: they stop with the same message, or the second one
returns the image of what the first one does, and its tokens have no place. -/
inductive EndsAlike (image : α → β) :
    Except Failure (α × Parser) → Except Failure (β × Parser) → Prop where
  | stopped {failure failure' : Failure}
      (same : failure'.unplaced = failure.unplaced) :
      EndsAlike image (.error failure) (.error failure')
  | done (value : α) {parser : Parser} (bare : parser.spans = false) :
      EndsAlike image (.ok (value, parser)) (.ok (image value, parser.unplaced))

def Respells (image : α → β) (left : Parse α) (right : Parse β) : Prop :=
  ∀ parser, parser.spans = false →
    EndsAlike image (left parser) (right parser.unplaced)

/-- The result does not depend on the places. -/
abbrev Stable (parse : Parse α) : Prop :=
  Respells id parse parse

/-- The result is a token, which is the same but for its place. -/
abbrev StableToken (parse : Parse Token) : Prop :=
  Respells Token.unplaced parse parse

section Rules

variable {image : α → β} {after : γ → δ} {left : Parse α} {right : Parse β}

theorem respells_pure (value : α) :
    Respells image (pure value) (pure (image value)) :=
  fun _ bare => .done value bare

theorem stable_pure (value : α) : Stable (pure value) :=
  respells_pure value

theorem respells_stop (failure : Failure) :
    Respells image (stop failure) (stop failure) :=
  fun _ _ => .stopped rfl

theorem Respells.bind {next : α → Parse γ} {next' : β → Parse δ}
    (same : Respells image left right)
    (rest : ∀ value, Respells after (next value) (next' (image value))) :
    Respells after (left >>= next) (right >>= next') := by
  intro parser bare
  have ends := same parser bare
  simp only [run_bind, Parse.bind]
  generalize left parser = result at ends ⊢
  generalize right parser.unplaced = result' at ends ⊢
  cases ends with
  | stopped same => exact .stopped same
  | done value bare => exact rest value _ bare

theorem Stable.bind {parse : Parse α} {next : α → Parse γ}
    {next' : α → Parse δ} (same : Stable parse)
    (rest : ∀ value, Respells after (next value) (next' value)) :
    Respells after (parse >>= next) (parse >>= next') :=
  Respells.bind same rest

theorem stableToken_peek : StableToken peek := by
  intro parser bare
  unfold peek Parser.unplaced
  cases ahead : parser.rest with
  | nil => exact .stopped rfl
  | cons token rest =>
      have ends : EndsAlike Token.unplaced (.ok (token, parser))
          (.ok (token.unplaced, parser.unplaced)) := .done token bare
      rw [Parser.unplaced, ahead] at ends
      exact ends

theorem stableToken_previous : StableToken previous := by
  intro parser bare
  unfold previous Parser.unplaced
  cases behind : parser.past with
  | nil => exact .stopped rfl
  | cons token past =>
      have ends : EndsAlike Token.unplaced (.ok (token, parser))
          (.ok (token.unplaced, parser.unplaced)) := .done token bare
      rw [Parser.unplaced, behind] at ends
      exact ends

theorem stableToken_advance : StableToken advance := by
  rintro ⟨past, rest, spans, constructors⟩ bare
  cases rest with
  | nil => exact .stopped rfl
  | cons token rest =>
      simp only [advance, Parser.unplaced, List.map_cons]
      by_cases isEof : token.kind = .eof
      · rw [if_pos isEof, if_pos (show token.unplaced.kind = .eof from isEof)]
        exact .done token bare
      · rw [if_neg isEof, if_neg (show token.unplaced.kind ≠ .eof from isEof)]
        exact .done token bare

theorem stable_constructors : Stable constructors :=
  fun _ bare => .done _ bare

/-- Where a node begins is lost. -/
theorem respells_start : Respells (fun _ => (⟨0, 0⟩ : Position)) start start :=
  Respells.bind stableToken_peek fun token => respells_pure token.span.start

theorem stable_check (kind : TokenKind) : Stable (check kind) :=
  Respells.bind stableToken_peek fun token =>
    stable_pure (decide (token.kind = kind))

theorem respells_if {condition : Prop} [Decidable condition]
    {other : Parse α} {other' : Parse β}
    (yes : Respells image left right) (no : Respells image other other') :
    Respells image (if condition then left else other)
      (if condition then right else other') := by
  split
  · exact yes
  · exact no

theorem stable_accept (kind : TokenKind) : Stable (accept kind) := by
  apply (stable_check kind).bind
  intro found
  apply respells_if
  · exact Respells.bind stableToken_advance fun _ => stable_pure true
  · exact stable_pure false

theorem respells_errorAt (token : Token) (message : String) :
    Respells image (errorAt token message)
      (errorAt token.unplaced message) :=
  fun _ _ => .stopped rfl

theorem respells_error (message : String) :
    Respells image (error message) (error message) :=
  Respells.bind stableToken_peek fun token => respells_errorAt token message

theorem stableToken_consume (kind : TokenKind) (message : String) :
    StableToken (consume kind message) := by
  apply (stable_check kind).bind
  intro found
  exact respells_if stableToken_advance (respells_error message)

theorem respells_literal (token : Token) (value : Except String α) :
    Respells id (literal token value) (literal token.unplaced value) := by
  cases value with
  | ok value => exact stable_pure value
  | error message => exact respells_errorAt token message

/-- A parser without locations does not ask where it stands. -/
theorem respells_spans {next next' : Bool → Parse α}
    (rest : Respells id (next false) (next' false)) :
    Respells id (spans >>= next) (spans >>= next') := by
  intro parser bare
  have unlocated : parser.unplaced.spans = false := bare
  simp only [run_bind, Parse.bind, spans, bare, unlocated]
  exact rest parser bare

theorem Stable.delimited {parse : Parse α} {constructors : Bool}
    (same : Stable parse) : Stable (delimited constructors parse) := by
  intro parser bare
  have ends := same { parser with constructors := constructors } bare
  have moved : { parser.unplaced with constructors := constructors } =
      { parser with constructors := constructors }.unplaced := rfl
  unfold Parse.delimited
  rw [moved]
  generalize parse { parser with constructors := constructors } = result
    at ends ⊢
  generalize parse { parser with constructors := constructors }.unplaced =
    result' at ends ⊢
  cases ends with
  | stopped same => exact .stopped same
  | done value bare => exact .done value bare

theorem stable_repeated {loop loop' : Nat → Parse α}
    (same : ∀ fuel, Respells id (loop fuel) (loop' fuel)) :
    Respells id (repeated loop) (repeated loop') := by
  intro parser bare
  unfold repeated
  have lengths : parser.unplaced.rest.length = parser.rest.length :=
    List.length_map _
  rw [lengths]
  exact same parser.rest.length parser bare

theorem Stable.items {item : Parse α} {closing : TokenKind}
    (same : Stable item) : Stable (items item closing) := by
  have loop : ∀ fuel, Stable (itemsLoop item closing fuel) := by
    intro fuel
    induction fuel with
    | zero => exact respells_stop _
    | succ fuel induction =>
        apply same.bind
        intro value
        apply (stable_accept .comma).bind
        intro more
        apply (stable_check closing).bind
        intro closed
        apply respells_if
        · exact induction.bind fun values => stable_pure (value :: values)
        · exact stable_pure [value]
  apply (stable_check closing).bind
  intro closed
  exact respells_if (stable_pure []) (stable_repeated loop)

theorem Stable.untilClosed {item : Parse α} {closing : TokenKind}
    (same : Stable item) : Stable (untilClosed item closing) := by
  apply stable_repeated
  intro fuel
  induction fuel with
  | zero => exact respells_stop _
  | succ fuel induction =>
      apply (stable_check closing).bind
      intro closed
      apply (stable_check .eof).bind
      intro ended
      apply respells_if
      · exact stable_pure []
      · apply same.bind
        intro value
        exact induction.bind fun values => stable_pure (value :: values)

/-- A token of a kind, of which only the lexeme is used. -/
theorem consume_bind {kind : TokenKind} {message : String}
    {next : Token → Parse α}
    (rest : ∀ token, Respells id (next token) (next token.unplaced)) :
    Stable (consume kind message >>= next) :=
  Respells.bind (stableToken_consume kind message) rest

theorem consumed {kind : TokenKind} {message : String} {parse : Parse α}
    (rest : Stable parse) : Stable (consume kind message >>= fun _ => parse) :=
  consume_bind fun _ => rest

theorem advanced {parse : Parse α} (rest : Stable parse) :
    Stable (advance >>= fun _ => parse) :=
  Respells.bind stableToken_advance fun _ => rest

/-- An optional part, if it comes next. -/
theorem Stable.optional {parse : Parse α} (kind : TokenKind)
    (same : Stable parse) :
    Stable (do
      let present ← accept kind
      if present then do
        let value ← parse
        pure (some value)
      else pure none) := by
  apply (stable_accept kind).bind
  intro present
  apply respells_if
  · exact same.bind fun value => stable_pure (some value)
  · exact stable_pure none

end Rules

/-- Nested entry points whose results do not depend on the places. -/
structure GrammarStable (given : Grammar) : Prop where
  assignment : Stable given.assignment
  or : Stable given.or
  unary : Stable given.unary
  declaration : Stable given.declaration
  «if» : Stable given.if

section Expressions

theorem respells_locate (node : Expr) (start start' : Position) :
    Respells id (locateExpression node start)
      (locateExpression node start') :=
  respells_spans (stable_pure node)

variable {given : Grammar} (nested : GrammarStable given)

include nested

theorem stable_delimitedExpression (constructors : Bool) :
    Stable (parseDelimitedExpression given constructors) :=
  nested.assignment.delimited

theorem stable_expressionList (closing : TokenKind) :
    Stable (expressionList given closing) := by
  apply (stable_delimitedExpression nested true).items.bind
  intro values
  exact consumed (stable_pure values)

omit nested in
theorem stable_objectKey : Stable objectKey := by
  apply Respells.bind stableToken_advance
  intro key
  dsimp only [Token.unplaced]
  split
  · exact stable_pure key.lexeme
  · exact respells_literal key key.decodeString
  · exact respells_errorAt key _

theorem stable_objectField : Stable (objectField given) := by
  apply stable_objectKey.bind
  intro key
  apply consumed
  apply (stable_delimitedExpression nested true).bind
  exact fun value => stable_pure (key, value)

theorem stable_objectFields : Stable (parseObjectFields given) := by
  apply (stable_objectField nested).items.bind
  intro fields
  exact consumed (stable_pure fields)

theorem stable_object : Stable (parseObject given) := by
  apply Respells.bind stableToken_previous
  intro brace
  apply (stable_objectFields nested).bind
  exact fun fields => respells_locate (.object fields) _ _

omit nested in
theorem stable_protocol : Stable connectionProtocol := by
  apply (stable_accept .using).bind
  intro named
  apply respells_if
  · exact consume_bind fun name => stable_pure (some name.lexeme)
  · exact stable_pure none

theorem stable_connection (transport : Transport) :
    Stable (parseConnectionExpression given transport) := by
  apply nested.or.delimited.bind
  intro address
  apply stable_protocol.bind
  exact fun protocol => stable_pure (Expr.connection transport address protocol)

theorem stable_config : Stable (requestConfig given) :=
  (stable_object nested).optional .leftBrace

theorem stable_request (kind : TokenKind) :
    Stable (parseRequestExpression given kind) := by
  unfold parseRequestExpression
  cases requestMethod kind with
  | none => exact respells_stop _
  | some method =>
      apply (stable_delimitedExpression nested false).bind
      intro url
      apply (stable_config nested).bind
      exact fun config => stable_pure (Expr.request method url config)

theorem stable_name (name : String) : Stable (parseName given name) := by
  apply stable_constructors.bind
  intro allowed
  apply respells_if
  · apply (stable_accept .leftBrace).bind
    intro braced
    apply respells_if
    · apply (stable_objectFields nested).bind
      exact fun fields => stable_pure (Expr.construct name fields)
    · exact stable_pure (Expr.identifier name)
  · exact stable_pure (Expr.identifier name)

theorem stable_parenthesized : Stable (parseParenthesized given) := by
  apply (stable_delimitedExpression nested true).bind
  intro inner
  exact consumed (stable_pure inner)

omit nested in
theorem respells_parseLiteral (token : Token) (node : α → Expr)
    (value : Except String α) :
    Respells id (parseLiteral token node value)
      (parseLiteral token.unplaced node value) :=
  Respells.bind (respells_literal token value) fun value =>
    stable_pure (node value)

theorem stable_primaryInner : Stable (parsePrimaryInner given) := by
  apply Respells.bind stableToken_advance
  intro token
  have kinds : token.unplaced.kind = token.kind := rfl
  rw [kinds]
  split
  · exact stable_connection nested _
  · exact stable_connection nested _
  · exact stable_request nested _
  · exact stable_request nested _
  · exact stable_request nested _
  · exact stable_request nested _
  · exact stable_request nested _
  · exact stable_request nested _
  · exact respells_parseLiteral token _ token.integer
  · exact respells_parseLiteral token _ token.float
  · exact respells_parseLiteral token _ token.decodeString
  · exact stable_pure (Expr.boolean true)
  · exact stable_pure (Expr.boolean false)
  · exact stable_pure Expr.null
  · exact stable_name nested token.lexeme
  · exact respells_parseLiteral token _ token.duration
  · exact stable_parenthesized nested
  · apply (stable_expressionList nested .rightBracket).bind
    exact fun values => stable_pure (Expr.array values)
  · exact stable_object nested
  · exact respells_errorAt token _

theorem stable_primary : Stable (parsePrimary given) := by
  apply Respells.bind respells_start
  intro start
  apply (stable_primaryInner nested).bind
  exact fun node => respells_locate node _ _

theorem stable_postfixOperator (operand : Expr) :
    Stable (postfixOperator given operand) := by
  apply (stable_accept .leftParen).bind
  intro called
  apply respells_if
  · apply (stable_expressionList nested .rightParen).bind
    exact fun values => stable_pure (some (Expr.call operand values))
  · apply (stable_accept .leftBracket).bind
    intro indexed
    apply respells_if
    · apply (stable_delimitedExpression nested true).bind
      intro index
      exact consumed (stable_pure (some (Expr.index operand index)))
    · apply (stable_accept .receive).bind
      intro received
      apply respells_if
      · exact stable_pure (some (Expr.receive operand))
      · apply (stable_accept .dot).bind
        intro dotted
        apply respells_if
        · exact consume_bind fun name =>
            stable_pure (some (Expr.property operand name.lexeme))
        · exact stable_pure none

theorem respells_postfixLoop (start start' : Position) (fuel : Nat) :
    ∀ operand : Expr, Respells id (postfixLoop given start fuel operand)
      (postfixLoop given start' fuel operand) := by
  induction fuel with
  | zero => exact fun _ => respells_stop _
  | succ fuel induction =>
      intro operand
      apply (stable_postfixOperator nested operand).bind
      intro next
      cases next with
      | none => exact stable_pure operand
      | some node =>
          exact Respells.bind (respells_locate node start start') induction

theorem stable_postfix : Stable (parsePostfix given) := by
  apply Respells.bind respells_start
  intro start
  apply (stable_primary nested).bind
  intro operand
  apply stable_repeated
  exact fun fuel => respells_postfixLoop nested start _ (fuel + 1) operand

theorem stable_unary : Stable (parseUnary given) := by
  apply Respells.bind respells_start
  intro start
  apply Respells.bind stableToken_peek
  intro token
  have kinds : token.unplaced.kind = token.kind := rfl
  rw [kinds]
  cases unaryOperator token.kind with
  | some operator =>
      apply Respells.bind stableToken_advance
      intro _
      apply nested.unary.bind
      exact fun operand => respells_locate (.unary operator operand) _ _
  | none => exact stable_postfix nested

omit nested in
theorem stable_nextOperator (operators : List (TokenKind × BinaryOp)) :
    Stable (nextOperator operators) := by
  apply Respells.bind stableToken_peek
  intro token
  have kinds : token.unplaced.kind = token.kind := rfl
  rw [kinds]
  cases operators.find? fun entry => entry.1 = token.kind with
  | none => exact stable_pure none
  | some entry => exact advanced (stable_pure (some entry.2))

omit nested in
theorem stable_binary {operand : Parse Expr} (same : Stable operand)
    (operators : List (TokenKind × BinaryOp)) :
    Stable (parseBinary operand operators) := by
  have loop : ∀ (start start' : Position) (fuel : Nat) (left : Expr),
      Respells id (binaryLoop operand operators start fuel left)
        (binaryLoop operand operators start' fuel left) := by
    intro start start' fuel
    induction fuel with
    | zero => exact fun _ => respells_stop _
    | succ fuel induction =>
        intro left
        apply (stable_nextOperator operators).bind
        intro next
        cases next with
        | none => exact stable_pure left
        | some operator =>
            apply same.bind
            intro right
            exact Respells.bind (respells_locate (.binary left operator right)
              start start') induction
  apply Respells.bind respells_start
  intro start
  apply same.bind
  intro left
  apply stable_repeated
  exact fun fuel => loop start _ (fuel + 1) left

theorem stable_or : Stable (parseOr given) := by
  have factor := stable_binary (stable_unary nested) factorOperators
  have term := stable_binary factor termOperators
  have comparison := stable_binary term comparisonOperators
  have equality := stable_binary comparison equalityOperators
  exact stable_binary (stable_binary equality [(.andAnd, .and)])
    [(.orOr, .or)]

theorem stable_destination : Stable (sendDestinationClause given) :=
  (stable_or nested).optional .to

theorem stable_send : Stable (parseSend given) := by
  apply Respells.bind respells_start
  intro start
  apply (stable_or nested).bind
  intro connection
  apply (stable_accept .send).bind
  intro sends
  apply respells_if
  · apply (stable_or nested).bind
    intro data
    apply (stable_destination nested).bind
    intro destination
    apply (stable_check .send).bind
    intro chained
    apply respells_if
    · exact respells_error _
    · exact respells_locate (.send connection data destination) _ _
  · exact stable_pure connection

theorem stable_assignment : Stable (parseAssignment given) := by
  apply Respells.bind respells_start
  intro start
  apply (stable_send nested).bind
  intro target
  apply (stable_accept .equal).bind
  intro assigns
  apply respells_if
  · apply respells_if
    · apply nested.assignment.bind
      exact fun value => respells_locate (.assignment target value) _ _
    · apply Respells.bind stableToken_previous
      exact fun sign => respells_errorAt sign _
  · exact stable_pure target

end Expressions

section Statements

theorem stable_typeName : Stable parseTypeName := by
  apply consume_bind
  intro token
  exact respells_spans (stable_pure (⟨token.lexeme, none⟩ : TypeAnnotation))

theorem stable_annotation : Stable parseAnnotation :=
  stable_typeName.optional .colon

theorem stable_typeField : Stable typeField := by
  apply consume_bind
  intro name
  apply consumed
  apply stable_typeName.bind
  exact fun annotated => stable_pure (TypeField.mk name.lexeme annotated)

theorem stable_type : Stable parseType := by
  apply consume_bind
  intro name
  apply consumed
  apply stable_typeField.items.bind
  intro fields
  exact consumed (stable_pure (Stmt.type name.lexeme fields))

theorem stable_parameter : Stable parameterItem := by
  apply consume_bind
  intro name
  apply stable_annotation.bind
  exact fun annotated => stable_pure (Parameter.mk name.lexeme annotated)

theorem stable_returnAnnotation : Stable returnAnnotation :=
  stable_typeName.optional .arrow

theorem respells_pattern (token : Token) :
    Respells id (parsePattern token) (parsePattern token.unplaced) := by
  unfold parsePattern
  have kinds : token.unplaced.kind = token.kind := rfl
  rw [kinds]
  split
  · apply Respells.bind (respells_literal token token.integer)
    exact fun value => stable_pure (Pattern.integer value)
  · apply Respells.bind (respells_literal token token.decodeString)
    exact fun value => stable_pure (Pattern.string value)
  · exact stable_pure (Pattern.boolean true)
  · exact stable_pure (Pattern.boolean false)
  · exact stable_pure Pattern.null
  · apply respells_if
    · exact stable_pure Pattern.wildcard
    · exact respells_errorAt token _
  · exact respells_errorAt token _

theorem respells_locatePattern (token : Token) (pattern : Pattern) :
    Respells id (locatePattern token pattern)
      (locatePattern token.unplaced pattern) :=
  respells_spans (stable_pure pattern)

theorem stable_control (node : Stmt) : Stable (parseControl node) :=
  consumed (stable_pure node)

variable {given : Grammar} (nested : GrammarStable given)

include nested

theorem stable_block : Stable (parseBlock given) := by
  apply consumed
  apply nested.declaration.untilClosed.bind
  intro statements
  exact consumed (stable_pure (Stmt.block statements))

theorem stable_function : Stable (parseFunction given) := by
  apply consume_bind
  intro name
  apply consumed
  apply stable_parameter.items.bind
  intro parameters
  apply consumed
  apply stable_returnAnnotation.bind
  intro returnAnnotated
  apply (stable_block nested).bind
  exact fun body =>
    stable_pure (Stmt.function name.lexeme parameters returnAnnotated body)

theorem stable_let : Stable (parseLet given) := by
  apply consume_bind
  intro name
  apply stable_annotation.bind
  intro annotated
  apply consumed
  apply nested.assignment.bind
  intro value
  exact consumed (stable_pure (Stmt.let name.lexeme annotated value))

theorem stable_matchArm : Stable (matchArm given) := by
  apply Respells.bind stableToken_advance
  intro token
  apply Respells.bind (respells_pattern token)
  intro pattern
  apply Respells.bind (respells_locatePattern token pattern)
  intro pattern
  apply consumed
  apply (stable_block nested).bind
  exact fun body => stable_pure (pattern, body)

theorem stable_match : Stable (parseMatch given) := by
  apply (stable_delimitedExpression nested false).bind
  intro expression
  apply consumed
  apply (stable_matchArm nested).untilClosed.bind
  intro arms
  exact consumed (stable_pure (Stmt.match expression arms))

theorem stable_elseBranch : Stable (elseBranch given) := by
  apply (stable_accept .else).bind
  intro otherwise
  apply respells_if
  · apply (stable_accept .if).bind
    intro chained
    apply respells_if
    · exact nested.if.bind fun branch => stable_pure (some branch)
    · exact (stable_block nested).bind fun branch => stable_pure (some branch)
  · exact stable_pure none

theorem stable_ifStatement : Stable (parseIf given) := by
  apply (stable_delimitedExpression nested false).bind
  intro condition
  apply (stable_block nested).bind
  intro thenBranch
  apply (stable_elseBranch nested).bind
  exact fun branch => stable_pure (Stmt.if condition thenBranch branch)

theorem stable_while : Stable (parseWhile given) := by
  apply (stable_delimitedExpression nested false).bind
  intro condition
  apply (stable_block nested).bind
  exact fun body => stable_pure (Stmt.while condition body)

theorem stable_loop (loop : String → Expr → Stmt → Stmt) :
    Stable (parseLoop given loop) := by
  apply consume_bind
  intro name
  apply consumed
  apply (stable_delimitedExpression nested false).bind
  intro iterable
  apply (stable_block nested).bind
  exact fun body => stable_pure (loop name.lexeme iterable body)

theorem stable_return : Stable (parseReturn given) := by
  have value : Stable (returnedExpression given) := by
    apply (stable_check .semicolon).bind
    intro nothing
    apply respells_if
    · exact stable_pure none
    · exact nested.assignment.bind fun value => stable_pure (some value)
  apply value.bind
  intro value
  exact consumed (stable_pure (Stmt.return value))

theorem stable_expressionStatement :
    Stable (parseExpressionStatement given) := by
  apply (stable_assignment nested).bind
  intro expression
  exact consumed (stable_pure (Stmt.expression expression))

theorem stable_declarationInner : Stable (parseDeclarationInner given) := by
  apply Respells.bind stableToken_peek
  intro token
  have kinds : token.unplaced.kind = token.kind := rfl
  rw [kinds]
  split
  · exact advanced stable_type
  · exact advanced (stable_function nested)
  · exact advanced (stable_let nested)
  · exact advanced (stable_control _)
  · exact advanced (stable_control _)
  · exact stable_block nested
  · exact advanced (stable_ifStatement nested)
  · exact advanced (stable_while nested)
  · exact advanced (stable_match nested)
  · exact advanced (stable_loop nested _)
  · exact advanced (stable_loop nested _)
  · exact advanced (stable_return nested)
  · exact stable_expressionStatement nested

theorem stable_declaration : Stable (parseDeclaration given) := by
  apply Respells.bind respells_start
  intro start
  apply (stable_declarationInner nested).bind
  intro node
  exact respells_spans (stable_pure node)

theorem GrammarStable.step : GrammarStable given.step where
  assignment := stable_assignment nested
  or := stable_or nested
  unary := stable_unary nested
  declaration := stable_declaration nested
  «if» := stable_ifStatement nested

end Statements

theorem grammarStable : ∀ fuel, GrammarStable (grammar fuel)
  | 0 => ⟨respells_stop _, respells_stop _, respells_stop _, respells_stop _,
      respells_stop _⟩
  | fuel + 1 => (grammarStable fuel).step

end NetLang
