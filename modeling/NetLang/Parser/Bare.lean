import NetLang.Parser.Strings
import NetLang.Parser.Total
import NetLang.Parser.Yields
import NetLang.Syntax.Lines

/-!
# What the bare parser returns

From the tokens of a source, a parser that keeps no locations returns legible
trees, which their dump tells apart.  There is one lemma for each function of
the parser.
-/

namespace NetLang

open Parse

variable {α : Type}

/-- The nested entry points return legible trees. -/
structure GrammarYields (given : Grammar) : Prop where
  assignment : Yields Expr.Legible given.assignment
  or : Yields Expr.Legible given.or
  unary : Yields Expr.Legible given.unary
  declaration : Yields Stmt.Legible given.declaration
  «if» : Yields Stmt.Legible given.if

/-- An optional part of a node, if it comes next. -/
theorem yields_option {post : α → Prop} {parse : Parse α} (kind : TokenKind)
    (part : Yields post parse) :
    Yields (fun value => ∀ inner ∈ value, post inner) (do
      let present ← accept kind
      if present then do
        let value ← parse
        pure (some value)
      else pure none) := by
  apply (passes_accept kind).bind
  intro present _
  apply yields_if
  · apply part.bind
    intro value holds
    exact yields_pure fun inner same => Option.some.inj same ▸ holds
  · exact yields_pure (by simp)

theorem yields_name (message : String) :
    Yields (fun token => PlainName token.lexeme)
      (consume .identifier message) :=
  fun parser lexical result done =>
    let ⟨⟨holds, same⟩, after⟩ :=
      yields_consume .identifier message parser lexical result done
    ⟨holds (.inl same), after⟩

section Expressions

theorem yields_locate {node : Expr} (legible : node.Legible)
    (start : Position) : Yields Expr.Legible (locateExpression node start) :=
  yields_spans (yields_pure legible)

variable {given : Grammar} (nested : GrammarYields given)

include nested

theorem yields_delimited (constructors : Bool) :
    Yields Expr.Legible (parseDelimitedExpression given constructors) :=
  nested.assignment.delimited

theorem yields_expressionList (closing : TokenKind) :
    Yields (fun values => ∀ value ∈ values, value.Legible)
      (expressionList given closing) := by
  apply (yields_delimited nested true).items.bind
  intro values all
  exact (yields_consume _ _).bind fun _ _ => yields_pure all

omit nested in
theorem passes_objectKey : Passes objectKey := by
  apply yields_advance.bind
  intro key _
  split
  · exact yields_pure trivial
  · intro parser lexical result done
    exact ⟨trivial, (yields_literal _ _ parser lexical result done).2⟩
  · exact yields_errorAt _ _

theorem yields_objectField :
    Yields (fun field => field.2.Legible) (objectField given) := by
  apply passes_objectKey.bind
  intro key _
  apply (yields_consume _ _).bind
  intro _ _
  exact (yields_delimited nested true).bind fun _ legible =>
    yields_pure legible

theorem yields_objectFields :
    Yields (fun fields => ∀ field ∈ fields, field.2.Legible)
      (parseObjectFields given) := by
  apply (yields_objectField nested).items.bind
  intro fields all
  exact (yields_consume _ _).bind fun _ _ => yields_pure all

theorem yields_object : Yields Expr.Legible (parseObject given) := by
  apply yields_previous.bind
  intro brace _
  exact (yields_objectFields nested).bind fun _ all =>
    yields_locate (.object all) _

omit nested in
theorem yields_protocol :
    Yields (fun protocol => ∀ name ∈ protocol, PlainName name)
      connectionProtocol := by
  apply (passes_accept .using).bind
  intro named _
  apply yields_if
  · apply (yields_name _).bind
    intro name plain
    exact yields_pure fun _ same => Option.some.inj same ▸ plain
  · exact yields_pure (by simp)

theorem yields_connection (transport : Transport) :
    Yields Expr.Legible (parseConnectionExpression given transport) := by
  apply nested.or.delimited.bind
  intro address legible
  exact yields_protocol.bind fun _ named =>
    yields_pure (.connection legible named)

theorem yields_config :
    Yields (fun config => ∀ object ∈ config, object.Legible)
      (requestConfig given) :=
  yields_option .leftBrace (yields_object nested)

theorem yields_request (kind : TokenKind) :
    Yields Expr.Legible (parseRequestExpression given kind) := by
  unfold parseRequestExpression
  cases requestMethod kind with
  | none => exact yields_stop _
  | some method =>
      apply (yields_delimited nested false).bind
      intro url legible
      exact (yields_config nested).bind fun _ configured =>
        yields_pure (.request legible configured)

theorem yields_parseName {name : String} (plain : PlainName name) :
    Yields Expr.Legible (parseName given name) := by
  apply passes_constructors.bind
  intro allowed _
  apply yields_if
  · apply (passes_accept .leftBrace).bind
    intro braced _
    apply yields_if
    · exact (yields_objectFields nested).bind fun _ all =>
        yields_pure (.construct plain all)
    · exact yields_pure (.identifier plain)
  · exact yields_pure (.identifier plain)

theorem yields_parenthesized :
    Yields Expr.Legible (parseParenthesized given) := by
  apply (yields_delimited nested true).bind
  intro inner legible
  exact (yields_consume _ _).bind fun _ _ => yields_pure legible

omit nested in
theorem yields_parseLiteral (token : Token) {node : α → Expr}
    {value : Except String α}
    (legible : ∀ read, value = .ok read → (node read).Legible) :
    Yields Expr.Legible (parseLiteral token node value) :=
  (yields_literal token value).bind fun read same =>
    yields_pure (legible read same)

theorem yields_primaryInner :
    Yields Expr.Legible (parsePrimaryInner given) := by
  apply yields_advance.bind
  intro token lexical
  split
  · exact yields_connection nested _
  · exact yields_connection nested _
  · exact yields_request nested _
  · exact yields_request nested _
  · exact yields_request nested _
  · exact yields_request nested _
  · exact yields_request nested _
  · exact yields_request nested _
  · exact yields_parseLiteral token fun _ _ => .integer _
  · next float =>
      exact yields_parseLiteral token fun _ read =>
        Token.float_legible lexical float read
  · exact yields_parseLiteral token fun _ _ => .string _
  · exact yields_pure (.boolean true)
  · exact yields_pure (.boolean false)
  · exact yields_pure .null
  · next name => exact yields_parseName nested (lexical (.inl name))
  · exact yields_parseLiteral token fun _ _ => .duration _
  · exact yields_parenthesized nested
  · exact (yields_expressionList nested .rightBracket).bind fun _ all =>
      yields_pure (.array all)
  · exact yields_object nested
  · exact yields_errorAt _ _

theorem yields_primary : Yields Expr.Legible (parsePrimary given) := by
  apply passes_start.bind
  intro start _
  exact (yields_primaryInner nested).bind fun _ legible =>
    yields_locate legible start

theorem yields_postfixOperator {operand : Expr} (legible : operand.Legible) :
    Yields (fun next => ∀ node ∈ next, node.Legible)
      (postfixOperator given operand) := by
  have some' : ∀ {node : Expr}, node.Legible →
      Yields (fun next => ∀ node ∈ next, node.Legible)
        (pure (some node)) :=
    fun legible => yields_pure fun _ same => Option.some.inj same ▸ legible
  apply (passes_accept .leftParen).bind
  intro called _
  apply yields_if
  · exact (yields_expressionList nested .rightParen).bind fun _ all =>
      some' (.call legible all)
  apply (passes_accept .leftBracket).bind
  intro indexed _
  apply yields_if
  · apply (yields_delimited nested true).bind
    intro index inner
    exact (yields_consume _ _).bind fun _ _ => some' (.index legible inner)
  apply (passes_accept .receive).bind
  intro received _
  apply yields_if
  · exact some' (.receive legible)
  apply (passes_accept .dot).bind
  intro dotted _
  apply yields_if
  · exact (yields_name _).bind fun _ plain => some' (.property legible plain)
  · exact yields_pure (by simp)

theorem yields_postfixLoop (start : Position) (fuel : Nat) {operand : Expr}
    (legible : operand.Legible) :
    Yields Expr.Legible (postfixLoop given start fuel operand) := by
  induction fuel generalizing operand with
  | zero => exact yields_stop _
  | succ fuel induction =>
      apply (yields_postfixOperator nested legible).bind
      intro next all
      cases next with
      | none => exact yields_pure legible
      | some node =>
          exact (yields_locate (all node rfl) start).bind fun _ located =>
            induction located

theorem yields_postfix : Yields Expr.Legible (parsePostfix given) := by
  apply passes_start.bind
  intro start _
  apply (yields_primary nested).bind
  intro operand legible
  exact .repeated fun fuel => yields_postfixLoop nested start _ legible

theorem yields_unary : Yields Expr.Legible (parseUnary given) := by
  apply passes_start.bind
  intro start _
  apply yields_peek.bind
  intro token _
  split
  · apply yields_advance.bind
    intro _ _
    exact nested.unary.bind fun _ legible =>
      yields_locate (.unary legible) start
  · exact yields_postfix nested

omit nested in
theorem passes_nextOperator (operators : List (TokenKind × BinaryOp)) :
    Passes (nextOperator operators) := by
  apply yields_peek.bind
  intro token _
  split
  · exact yields_pure trivial
  · exact yields_advance.bind fun _ _ => yields_pure trivial

omit nested in
theorem yields_binaryLoop {operand : Parse Expr}
    (tighter : Yields Expr.Legible operand)
    (operators : List (TokenKind × BinaryOp)) (start : Position) (fuel : Nat)
    {left : Expr} (legible : left.Legible) :
    Yields Expr.Legible (binaryLoop operand operators start fuel left) := by
  induction fuel generalizing left with
  | zero => exact yields_stop _
  | succ fuel induction =>
      apply (passes_nextOperator operators).bind
      intro next _
      cases next with
      | none => exact yields_pure legible
      | some operator =>
          apply tighter.bind
          intro right legible'
          exact (yields_locate (.binary legible legible') start).bind
            fun _ located => induction located

omit nested in
theorem yields_binary {operand : Parse Expr}
    (tighter : Yields Expr.Legible operand)
    (operators : List (TokenKind × BinaryOp)) :
    Yields Expr.Legible (parseBinary operand operators) := by
  apply passes_start.bind
  intro start _
  apply tighter.bind
  intro left legible
  exact .repeated fun fuel =>
    yields_binaryLoop tighter operators start _ legible

theorem yields_or : Yields Expr.Legible (parseOr given) := by
  have factor := yields_binary (yields_unary nested) factorOperators
  have term := yields_binary factor termOperators
  have comparison := yields_binary term comparisonOperators
  have equality := yields_binary comparison equalityOperators
  exact yields_binary (yields_binary equality [(.andAnd, .and)])
    [(.orOr, .or)]

theorem yields_destination :
    Yields (fun destination => ∀ address ∈ destination, address.Legible)
      (sendDestinationClause given) :=
  yields_option .to (yields_or nested)

theorem yields_send : Yields Expr.Legible (parseSend given) := by
  apply passes_start.bind
  intro start _
  apply (yields_or nested).bind
  intro connection first
  apply (passes_accept .send).bind
  intro sends _
  apply yields_if
  · apply (yields_or nested).bind
    intro data second
    apply (yields_destination nested).bind
    intro destination third
    apply (passes_check .send).bind
    intro chained _
    exact yields_if (yields_error _)
      (yields_locate (.send first second third) start)
  · exact yields_pure first

theorem yields_assignment : Yields Expr.Legible (parseAssignment given) := by
  apply passes_start.bind
  intro start _
  apply (yields_send nested).bind
  intro target first
  apply (passes_accept .equal).bind
  intro assigns _
  apply yields_if
  · apply yields_if
    · exact nested.assignment.bind fun _ second =>
        yields_locate (.assignment first second) start
    · exact yields_previous.bind fun _ _ => yields_errorAt _ _
  · exact yields_pure first

end Expressions

section Statements

theorem yields_typeName : Yields TypeAnnotation.Legible parseTypeName := by
  apply (yields_name _).bind
  intro token plain
  exact yields_spans (yields_pure ⟨plain, rfl⟩)

theorem yields_annotation :
    Yields (fun annotated => ∀ annotation ∈ annotated, annotation.Legible)
      parseAnnotation :=
  yields_option .colon yields_typeName

theorem yields_typeField : Yields TypeField.Legible typeField := by
  apply (yields_name _).bind
  intro name plain
  apply (yields_consume _ _).bind
  intro _ _
  exact yields_typeName.bind fun _ legible => yields_pure ⟨plain, legible⟩

theorem yields_type : Yields Stmt.Legible parseType := by
  apply (yields_name _).bind
  intro name plain
  apply (yields_consume _ _).bind
  intro _ _
  apply yields_typeField.items.bind
  intro fields all
  exact (yields_consume _ _).bind fun _ _ => yields_pure (.type plain all)

theorem yields_parameter : Yields Parameter.Legible parameterItem := by
  apply (yields_name _).bind
  intro name plain
  exact yields_annotation.bind fun _ legible => yields_pure ⟨plain, legible⟩

theorem yields_returnAnnotation :
    Yields (fun annotated => ∀ annotation ∈ annotated, annotation.Legible)
      returnAnnotation :=
  yields_option .arrow yields_typeName

theorem yields_pattern (token : Token) :
    Yields Pattern.Legible (parsePattern token) := by
  unfold parsePattern
  split
  · exact (yields_literal _ _).bind fun _ _ => yields_pure nofun
  · exact (yields_literal _ _).bind fun _ _ => yields_pure nofun
  · exact yields_pure nofun
  · exact yields_pure nofun
  · exact yields_pure nofun
  · exact yields_if (yields_pure nofun) (yields_errorAt _ _)
  · exact yields_errorAt _ _

theorem yields_control {node : Stmt} (legible : node.Legible) :
    Yields Stmt.Legible (parseControl node) :=
  (yields_consume _ _).bind fun _ _ => yields_pure legible

variable {given : Grammar} (nested : GrammarYields given)

include nested

theorem yields_block : Yields Stmt.Legible (parseBlock given) := by
  apply (yields_consume _ _).bind
  intro _ _
  apply nested.declaration.untilClosed.bind
  intro statements all
  exact (yields_consume _ _).bind fun _ _ => yields_pure (.block all)

theorem yields_function : Yields Stmt.Legible (parseFunction given) := by
  apply (yields_name _).bind
  intro name plain
  apply (yields_consume _ _).bind
  intro _ _
  apply yields_parameter.items.bind
  intro parameters all
  apply (yields_consume _ _).bind
  intro _ _
  apply yields_returnAnnotation.bind
  intro returnAnnotated legible
  exact (yields_block nested).bind fun _ body =>
    yields_pure (.function plain all legible body)

theorem yields_let : Yields Stmt.Legible (parseLet given) := by
  apply (yields_name _).bind
  intro name plain
  apply yields_annotation.bind
  intro annotated legible
  apply (yields_consume _ _).bind
  intro _ _
  apply nested.assignment.bind
  intro value inner
  exact (yields_consume _ _).bind fun _ _ =>
    yields_pure (.let plain legible inner)

theorem yields_matchArm :
    Yields (fun arm => arm.1.Legible ∧ arm.2.Legible) (matchArm given) := by
  apply yields_advance.bind
  intro token _
  apply (yields_pattern token).bind
  intro pattern tested
  have located : Yields Pattern.Legible (locatePattern token pattern) :=
    yields_spans (yields_pure tested)
  apply located.bind
  intro pattern tested
  apply (yields_consume _ _).bind
  intro _ _
  exact (yields_block nested).bind fun _ body => yields_pure ⟨tested, body⟩

theorem yields_match : Yields Stmt.Legible (parseMatch given) := by
  apply (yields_delimited nested false).bind
  intro value legible
  apply (yields_consume _ _).bind
  intro _ _
  apply (yields_matchArm nested).untilClosed.bind
  intro arms all
  exact (yields_consume _ _).bind fun _ _ => yields_pure
    (.match legible (fun arm member => (all arm member).1)
      fun arm member => (all arm member).2)

theorem yields_elseBranch :
    Yields (fun branch => ∀ node ∈ branch, node.Legible)
      (elseBranch given) := by
  have some' : ∀ {node : Stmt}, node.Legible →
      Yields (fun branch => ∀ node ∈ branch, node.Legible)
        (pure (some node)) :=
    fun legible => yields_pure fun _ same => Option.some.inj same ▸ legible
  apply (passes_accept .else).bind
  intro otherwise _
  apply yields_if
  · apply (passes_accept .if).bind
    intro chained _
    apply yields_if
    · exact nested.if.bind fun _ legible => some' legible
    · exact (yields_block nested).bind fun _ legible => some' legible
  · exact yields_pure (by simp)

theorem yields_ifStatement : Yields Stmt.Legible (parseIf given) := by
  apply (yields_delimited nested false).bind
  intro condition first
  apply (yields_block nested).bind
  intro thenBranch second
  exact (yields_elseBranch nested).bind fun _ third =>
    yields_pure (.if first second third)

theorem yields_while : Yields Stmt.Legible (parseWhile given) := by
  apply (yields_delimited nested false).bind
  intro condition first
  exact (yields_block nested).bind fun _ second =>
    yields_pure (.while first second)

theorem yields_loop {loop : String → Expr → Stmt → Stmt}
    (legible : ∀ {name iterable body}, PlainName name → iterable.Legible →
      body.Legible → (loop name iterable body).Legible) :
    Yields Stmt.Legible (parseLoop given loop) := by
  apply (yields_name _).bind
  intro name plain
  apply (yields_consume _ _).bind
  intro _ _
  apply (yields_delimited nested false).bind
  intro iterable first
  exact (yields_block nested).bind fun _ second =>
    yields_pure (legible plain first second)

theorem yields_return : Yields Stmt.Legible (parseReturn given) := by
  have value : Yields (fun value => ∀ result ∈ value, result.Legible)
      (returnedExpression given) := by
    apply (passes_check .semicolon).bind
    intro nothing _
    apply yields_if
    · exact yields_pure (by simp)
    · exact nested.assignment.bind fun _ legible =>
        yields_pure fun _ same => Option.some.inj same ▸ legible
  apply value.bind
  intro value legible
  exact (yields_consume _ _).bind fun _ _ => yields_pure (.return legible)

theorem yields_expressionStatement :
    Yields Stmt.Legible (parseExpressionStatement given) := by
  apply (yields_assignment nested).bind
  intro expression legible
  exact (yields_consume _ _).bind fun _ _ => yields_pure (.expression legible)

theorem yields_declarationInner :
    Yields Stmt.Legible (parseDeclarationInner given) := by
  apply yields_peek.bind
  intro token _
  split
  · exact yields_advance.bind fun _ _ => yields_type
  · exact yields_advance.bind fun _ _ => yields_function nested
  · exact yields_advance.bind fun _ _ => yields_let nested
  · exact yields_advance.bind fun _ _ => yields_control .break
  · exact yields_advance.bind fun _ _ => yields_control .continue
  · exact yields_block nested
  · exact yields_advance.bind fun _ _ => yields_ifStatement nested
  · exact yields_advance.bind fun _ _ => yields_while nested
  · exact yields_advance.bind fun _ _ => yields_match nested
  · exact yields_advance.bind fun _ _ => yields_loop nested .for
  · exact yields_advance.bind fun _ _ => yields_loop nested .parallel
  · exact yields_advance.bind fun _ _ => yields_return nested
  · exact yields_expressionStatement nested

theorem yields_declaration :
    Yields Stmt.Legible (parseDeclaration given) := by
  apply passes_start.bind
  intro start _
  apply (yields_declarationInner nested).bind
  intro node legible
  exact yields_spans (yields_pure legible)

theorem GrammarYields.step : GrammarYields given.step where
  assignment := yields_assignment nested
  or := yields_or nested
  unary := yields_unary nested
  declaration := yields_declaration nested
  «if» := yields_ifStatement nested

end Statements

theorem grammarYields : ∀ fuel, GrammarYields (grammar fuel)
  | 0 => ⟨yields_stop _, yields_stop _, yields_stop _, yields_stop _,
      yields_stop _⟩
  | fuel + 1 => (grammarYields fuel).step

/-- A program that the bare parser returns for a source. -/
def Parsed (program : Program) : Prop :=
  ∃ source tokens parser, tokenize source = .ok tokens ∧
    Parser.new tokens = .ok parser ∧ parser.parseProgram = .ok program

theorem Parsed.legible {program : Program} (parsed : Parsed program) :
    ∀ node ∈ program.statements, node.Legible := by
  obtain ⟨source, tokens, parser, lexed, made, returned⟩ := parsed
  obtain ⟨_, rfl⟩ := new_ok_iff.mp made
  have lexical : Parser.Lexical ⟨[], tokens, false, true⟩ :=
    ⟨rfl, by simp, tokenize_lexical lexed⟩
  have yields : Yields
      (fun program : Program => ∀ node ∈ program.statements, node.Legible)
      (parseProgram (grammar (tokens.length + 1))) :=
    (grammarYields _).declaration.untilClosed.bind fun _ all =>
      yields_pure all
  unfold Parser.parseProgram at returned
  cases ran : parseProgram (grammar (tokens.length + 1))
      ⟨[], tokens, false, true⟩ with
  | error failure =>
      rw [Parser.fuel, ran] at returned
      cases returned
  | ok result =>
      rw [Parser.fuel, ran] at returned
      cases returned
      exact (yields _ lexical result ran).1

/-- The dump is faithful: two programs that the bare parser returns are the
same if their dumps are. -/
theorem pretty_injective [Formatting] (faithful : Formatting.Faithful) :
    ∀ program other, Parsed program → Parsed other →
      program.pretty = other.pretty → program = other :=
  fun _ _ parsed parsed' same =>
    Program.eq_of_pretty faithful parsed.legible parsed'.legible same

section Example

/-- Strings in quotes, with escapes for the characters that have one. -/
@[reducible] def escapedTexts : Formatting :=
  ⟨fun value => toString value.bits.toNat,
    fun text => quote (debugSpelling text.toList)⟩

theorem Spells.newline_free {text spelling : List Char}
    (spells : Spells text spelling) : '\n' ∉ spelling := by
  induction spells with
  | nil => simp
  | plain other _ induction =>
      intro member
      cases List.mem_cons.mp member with
      | inl same => exact other (by simp [← same])
      | inr later => exact induction later
  | escape coded _ induction =>
      intro member
      simp only [List.mem_cons] at member
      obtain wrong | same | later := member
      · exact absurd wrong (by decide)
      · subst same
        have codes := escapeCode_some coded
        simp at codes
      · exact induction later

theorem escapedTexts_faithful : @Formatting.Faithful escapedTexts := by
  let _formatting := escapedTexts
  have quotes : ∀ text : String, (Formatting.debugString text).toList =
      '"' :: (debugSpelling text.toList ++ ['"']) :=
    fun text => String.toList_ofList
  refine ⟨?_, ?_, ?_, ?_, ?_⟩
  · intro text text' same
    have whole := congrArg String.toList same
    rw [quotes, quotes] at whole
    injection whole with _ inner
    have spellings := List.append_cancel_right inner
    have decoded := (debugSpelling_spells text.toList).decode
    rw [spellings, (debugSpelling_spells text'.toList).decode] at decoded
    exact String.toList_inj.mp (Option.some.inj decoded).symm
  · intro text member
    rw [quotes] at member
    have inner := (debugSpelling_spells text.toList).newline_free
    simp [inner] at member
  · intro text
    rw [quotes]
    rfl
  · intro value _ value' _ same
    have bits : value.bits = value'.bits :=
      BitVec.eq_of_toNat_eq (Nat.repr_injective same)
    exact congrArg Binary64.mk bits
  · exact fun value _ => Pretty.line_nat _

def declaring (name : String) : Program :=
  ⟨[.let name none (.integer 1)]⟩

theorem parsed_declaring : Parsed (declaring "x") ∧ Parsed (declaring "y") :=
  ⟨⟨"let x=1;", [⟨.let, "let", 1, 1⟩, ⟨.identifier, "x", 1, 5⟩,
      ⟨.equal, "=", 1, 6⟩, ⟨.integer, "1", 1, 7⟩, ⟨.semicolon, ";", 1, 8⟩,
      ⟨.eof, "", 1, 9⟩], _, by decide +kernel, rfl, rfl⟩,
    ⟨"let y=1;", [⟨.let, "let", 1, 1⟩, ⟨.identifier, "y", 1, 5⟩,
      ⟨.equal, "=", 1, 6⟩, ⟨.integer, "1", 1, 7⟩, ⟨.semicolon, ";", 1, 8⟩,
      ⟨.eof, "", 1, 9⟩], _, by decide +kernel, rfl, rfl⟩⟩

/-- A declaration is told by its dump, which another name changes. -/
theorem pretty_injective_names :
    declaring "x" = ⟨[.let "x" none (.integer 1)]⟩ ∧
      @Program.pretty escapedTexts (declaring "x") ≠
        @Program.pretty escapedTexts (declaring "y") := by
  obtain ⟨parsed, parsed'⟩ := parsed_declaring
  refine ⟨@pretty_injective escapedTexts escapedTexts_faithful _ _ parsed
    parsed rfl, fun same => ?_⟩
  have programs := @pretty_injective escapedTexts escapedTexts_faithful _ _
    parsed parsed' same
  simp [declaring] at programs

end Example

end NetLang
