import NetLang.Parser.Expression

/-!
# Parsing of statements and programs
-/

namespace NetLang

open Parse

section Statements

variable (given : Grammar)

def parseTypeName : Parse TypeAnnotation := do
  let token ← consume .identifier "expected type name"
  let spans ← spans
  pure ⟨token.lexeme, if spans then some token.span else none⟩

def parseAnnotation : Parse (Option TypeAnnotation) := do
  let annotated ← accept .colon
  if annotated then do
    let name ← parseTypeName
    pure (some name)
  else pure none

def typeField : Parse TypeField := do
  let name ← consume .identifier "expected field name"
  let _ ← consume .colon "expected ':' after field name"
  let annotated ← parseTypeName
  pure ⟨name.lexeme, annotated⟩

def parseType : Parse Stmt := do
  let name ← consume .identifier "expected type declaration name"
  let _ ← consume .leftBrace "expected '\x7b' after type name"
  let fields ← items typeField .rightBrace
  let _ ← consume .rightBrace "expected '\x7d' after type fields"
  pure (.type name.lexeme fields)

def parameterItem : Parse Parameter := do
  let name ← consume .identifier "expected parameter name"
  let annotated ← parseAnnotation
  pure ⟨name.lexeme, annotated⟩

def returnAnnotation : Parse (Option TypeAnnotation) := do
  let annotated ← accept .arrow
  if annotated then do
    let name ← parseTypeName
    pure (some name)
  else pure none

def parseBlock : Parse Stmt := do
  let _ ← consume .leftBrace "expected '\x7b' before block"
  let statements ← untilClosed given.declaration .rightBrace
  let _ ← consume .rightBrace "expected '\x7d' after block"
  pure (.block statements)

def parseFunction : Parse Stmt := do
  let name ← consume .identifier "expected function name"
  let _ ← consume .leftParen "expected '(' after function name"
  let parameters ← items parameterItem .rightParen
  let _ ← consume .rightParen "expected ')' after parameters"
  let returnAnnotated ← returnAnnotation
  let body ← parseBlock given
  pure (.function name.lexeme parameters returnAnnotated body)

def parseLet : Parse Stmt := do
  let name ← consume .identifier "expected variable name"
  let annotated ← parseAnnotation
  let _ ← consume .equal "expected '=' after variable name"
  let value ← parseExpression given
  let _ ← consume .semicolon "expected ';' after variable declaration"
  pure (.let name.lexeme annotated value)

def parsePattern (token : Token) : Parse Pattern :=
  match token.kind with
  | .integer => do
      let value ← literal token token.integer
      pure (.integer value)
  | .string => do
      let value ← literal token token.decodeString
      pure (.string value)
  | .true => pure (.boolean true)
  | .false => pure (.boolean false)
  | .null => pure .null
  | .identifier =>
      if token.lexeme = "_" then pure .wildcard
      else errorAt token "expected literal pattern or '_'"
  | _ => errorAt token "expected literal pattern or '_'"

def locatePattern (token : Token) (pattern : Pattern) : Parse Pattern := do
  let spans ← spans
  if spans then pure (.located token.span pattern) else pure pattern

def matchArm : Parse (Pattern × Stmt) := do
  let token ← advance
  let pattern ← parsePattern token
  let pattern ← locatePattern token pattern
  let _ ← consume .fatArrow "expected '=>' after match pattern"
  let body ← parseBlock given
  pure (pattern, body)

def parseMatch : Parse Stmt := do
  let expression ← parseDelimitedExpression given false
  let _ ← consume .leftBrace "expected '\x7b' before match arms"
  let arms ← untilClosed (matchArm given) .rightBrace
  let _ ← consume .rightBrace "expected '\x7d' after match arms"
  pure (.match expression arms)

def elseBranch : Parse (Option Stmt) := do
  let otherwise ← accept .else
  if otherwise then do
    let chained ← accept .if
    if chained then do
      let branch ← given.if
      pure (some branch)
    else do
      let branch ← parseBlock given
      pure (some branch)
  else pure none

/-- The leading `if` has been consumed. -/
def parseIf : Parse Stmt := do
  let condition ← parseDelimitedExpression given false
  let thenBranch ← parseBlock given
  let branch ← elseBranch given
  pure (.if condition thenBranch branch)

def parseWhile : Parse Stmt := do
  let condition ← parseDelimitedExpression given false
  let body ← parseBlock given
  pure (.while condition body)

/-- A serial or a parallel loop over an array. -/
def parseLoop (loop : String → Expr → Stmt → Stmt) : Parse Stmt := do
  let variableName ← consume .identifier "expected loop variable"
  let _ ← consume .in "expected 'in' after loop variable"
  let iterable ← parseDelimitedExpression given false
  let body ← parseBlock given
  pure (loop variableName.lexeme iterable body)

def returnedExpression : Parse (Option Expr) := do
  let nothing ← check .semicolon
  if nothing then pure none
  else do
    let value ← parseExpression given
    pure (some value)

def parseReturn : Parse Stmt := do
  let value ← returnedExpression given
  let _ ← consume .semicolon "expected ';' after return"
  pure (.return value)

def parseControl (node : Stmt) : Parse Stmt := do
  let _ ← consume .semicolon "expected ';' after loop control statement"
  pure node

/-- The expression begins with the statement's own first token. -/
def parseExpressionStatement : Parse Stmt := do
  let expression ← parseAssignment given
  let _ ← consume .semicolon "expected ';' after expression"
  pure (.expression expression)

/-- What a statement or a declaration is depends on its first token. -/
def parseDeclarationInner : Parse Stmt := do
  let token ← peek
  match token.kind with
  | .type => do
      let _ ← advance
      parseType
  | .fn => do
      let _ ← advance
      parseFunction given
  | .let => do
      let _ ← advance
      parseLet given
  | .break => do
      let _ ← advance
      parseControl .break
  | .continue => do
      let _ ← advance
      parseControl .continue
  | .leftBrace => parseBlock given
  | .if => do
      let _ ← advance
      parseIf given
  | .while => do
      let _ ← advance
      parseWhile given
  | .match => do
      let _ ← advance
      parseMatch given
  | .for => do
      let _ ← advance
      parseLoop given .for
  | .parallel => do
      let _ ← advance
      parseLoop given .parallel
  | .return => do
      let _ ← advance
      parseReturn given
  | _ => parseExpressionStatement given

def parseDeclaration : Parse Stmt := do
  let start ← start
  let node ← parseDeclarationInner given
  let spans ← spans
  if spans then do
    let last ← previous
    pure (.located ⟨start, last.span.finish⟩ node)
  else pure node

def parseProgram : Parse Program := do
  let statements ← untilClosed given.declaration .eof
  pure ⟨statements⟩

end Statements

/-- The grammar without fuel. -/
def noGrammar : Grammar where
  assignment := stop .outOfFuel
  or := stop .outOfFuel
  unary := stop .outOfFuel
  declaration := stop .outOfFuel
  «if» := stop .outOfFuel

def Grammar.step (given : Grammar) : Grammar where
  assignment := parseAssignment given
  or := parseOr given
  unary := parseUnary given
  declaration := parseDeclaration given
  «if» := parseIf given

def grammar : Nat → Grammar
  | 0 => noGrammar
  | fuel + 1 => (grammar fuel).step

namespace Parser

/-- The fuel that is always enough. -/
def fuel (parser : Parser) : Nat :=
  parser.rest.length + 1

def parseProgram (parser : Parser) : Except Failure Program :=
  (NetLang.parseProgram (grammar parser.fuel) parser).map Prod.fst

def parseExpressionComplete (parser : Parser) : Except Failure Expr :=
  (NetLang.parseExpressionComplete (grammar parser.fuel) parser).map Prod.fst

end Parser

end NetLang
