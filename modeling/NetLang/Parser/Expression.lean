import NetLang.Parser.Monad

/-!
# Parsing of expressions

One function for each level of precedence.  The recursion is tied by fuel: a
grammar runs the nested entry points.  The range of a node is taken from its
first token to the last one that was consumed.
-/

namespace NetLang

open Parse

/-- The recursive entry points. -/
structure Grammar where
  assignment : Parse Expr
  or : Parse Expr
  unary : Parse Expr
  declaration : Parse Stmt
  «if» : Parse Stmt

/-- An expression without its outermost location. -/
def Expr.bare : Expr → Expr
  | .located _ inner => inner
  | node => node

/-- Parentheses extend the range of a node without another wrapper. -/
def locateExpression (node : Expr) (start : Position) : Parse Expr := do
  let spans ← spans
  if spans then do
    let last ← previous
    pure (.located ⟨start, last.span.finish⟩ node.bare)
  else pure node

section Levels

variable (given : Grammar)

def parseExpression : Parse Expr :=
  given.assignment

def parseDelimitedExpression (constructors : Bool) : Parse Expr :=
  delimited constructors (parseExpression given)

def expressionList (closing : TokenKind) : Parse (List Expr) := do
  let values ← items (parseDelimitedExpression given true) closing
  let _ ← consume closing
    "expected closing delimiter after expression list"
  pure values

def objectKey : Parse String := do
  let key ← advance
  match key.kind with
  | .identifier => pure key.lexeme
  | .string => literal key key.decodeString
  | _ => errorAt key "expected identifier or string object key"

def objectField : Parse (String × Expr) := do
  let key ← objectKey
  let _ ← consume .colon "expected ':' after object key"
  let value ← parseDelimitedExpression given true
  pure (key, value)

def parseObjectFields : Parse (List (String × Expr)) := do
  let fields ← items (objectField given) .rightBrace
  let _ ← consume .rightBrace "expected '\x7d' after object"
  pure fields

/-- The opening brace has been consumed. -/
def parseObject : Parse Expr := do
  let brace ← previous
  let fields ← parseObjectFields given
  locateExpression (.object fields) brace.span.start

def connectionProtocol : Parse (Option String) := do
  let named ← accept .using
  if named then do
    let name ← consume .identifier "expected protocol name after 'using'"
    pure (some name.lexeme)
  else pure none

def parseConnectionExpression (transport : Transport) : Parse Expr := do
  let address ← delimited false given.or
  let protocol ← connectionProtocol
  pure (.connection transport address protocol)

def requestConfig : Parse (Option Expr) := do
  let configured ← accept .leftBrace
  if configured then do
    let config ← parseObject given
    pure (some config)
  else pure none

def requestMethod : TokenKind → Option HttpMethod
  | .get => some .get
  | .post => some .post
  | .put => some .put
  | .patch => some .patch
  | .delete => some .delete
  | .head => some .head
  | _ => none

/-- A URL is a full expression; an object after it is its configuration.  Any
other kind of token is a panic. -/
def parseRequestExpression (kind : TokenKind) : Parse Expr :=
  match requestMethod kind with
  | none => stop .panic
  | some method => do
      let url ← parseDelimitedExpression given false
      let config ← requestConfig given
      pure (.request method url config)

/-- A name is a constructor if it may be one and a brace follows. -/
def parseName (name : String) : Parse Expr := do
  let allowed ← constructors
  if allowed then do
    let braced ← accept .leftBrace
    if braced then do
      let fields ← parseObjectFields given
      pure (.construct name fields)
    else pure (.identifier name)
  else pure (.identifier name)

def parseParenthesized : Parse Expr := do
  let inner ← parseDelimitedExpression given true
  let _ ← consume .rightParen "expected ')' after expression"
  pure inner

def parseLiteral {α : Type} (token : Token) (node : α → Expr)
    (value : Except String α) : Parse Expr := do
  let value ← literal token value
  pure (node value)

def parsePrimaryInner : Parse Expr := do
  let token ← advance
  match token.kind with
  | .tcp => parseConnectionExpression given .tcp
  | .udp => parseConnectionExpression given .udp
  | .get | .post | .put | .patch | .delete | .head =>
      parseRequestExpression given token.kind
  | .integer => parseLiteral token .integer token.integer
  | .float => parseLiteral token .float token.float
  | .string => parseLiteral token .string token.decodeString
  | .true => pure (.boolean true)
  | .false => pure (.boolean false)
  | .null => pure .null
  | .identifier => parseName given token.lexeme
  | .duration => parseLiteral token .duration token.duration
  | .leftParen => parseParenthesized given
  | .leftBracket => do
      let values ← expressionList given .rightBracket
      pure (.array values)
  | .leftBrace => parseObject given
  | _ => errorAt token "expected expression"

def parsePrimary : Parse Expr := do
  let start ← start
  let node ← parsePrimaryInner given
  locateExpression node start

/-- One more postfix operator, if there is one. -/
def postfixOperator (operand : Expr) : Parse (Option Expr) := do
  let called ← accept .leftParen
  if called then do
    let arguments ← expressionList given .rightParen
    pure (some (.call operand arguments))
  else do
    let indexed ← accept .leftBracket
    if indexed then do
      let index ← parseDelimitedExpression given true
      let _ ← consume .rightBracket "expected ']' after index"
      pure (some (.index operand index))
    else do
      let received ← accept .receive
      if received then pure (some (.receive operand))
      else do
        let dotted ← accept .dot
        if dotted then do
          let name ← consume .identifier
            "expected property name after '.'"
          pure (some (.property operand name.lexeme))
        else pure none

def postfixLoop (start : Position) : Nat → Expr → Parse Expr
  | 0, _ => stop .outOfFuel
  | fuel + 1, operand => do
      let next ← postfixOperator given operand
      match next with
      | none => pure operand
      | some node => do
          let node ← locateExpression node start
          postfixLoop start fuel node

def parsePostfix : Parse Expr := do
  let start ← start
  let operand ← parsePrimary given
  repeated fun fuel => postfixLoop given start (fuel + 1) operand

def unaryOperator : TokenKind → Option UnaryOp
  | .bang => some .not
  | .minus => some .negate
  | _ => none

def parseUnary : Parse Expr := do
  let start ← start
  let token ← peek
  match unaryOperator token.kind with
  | some operator => do
      let _ ← advance
      let operand ← given.unary
      locateExpression (.unary operator operand) start
  | none => parsePostfix given

/-- The operator of a level that comes next, which is consumed. -/
def nextOperator (operators : List (TokenKind × BinaryOp)) :
    Parse (Option BinaryOp) := do
  let token ← peek
  match operators.find? fun entry => entry.1 = token.kind with
  | none => pure none
  | some entry => do
      let _ ← advance
      pure (some entry.2)

def binaryLoop (operand : Parse Expr)
    (operators : List (TokenKind × BinaryOp)) (start : Position) :
    Nat → Expr → Parse Expr
  | 0, _ => stop .outOfFuel
  | fuel + 1, left => do
      let next ← nextOperator operators
      match next with
      | none => pure left
      | some operator => do
          let right ← operand
          let node ← locateExpression (.binary left operator right) start
          binaryLoop operand operators start fuel node

/-- Left-associative operators over a tighter level. -/
def parseBinary (operand : Parse Expr)
    (operators : List (TokenKind × BinaryOp)) : Parse Expr := do
  let start ← start
  let left ← operand
  repeated fun fuel => binaryLoop operand operators start (fuel + 1) left

def factorOperators : List (TokenKind × BinaryOp) :=
  [(.star, .multiply), (.slash, .divide), (.percent, .remainder)]

def termOperators : List (TokenKind × BinaryOp) :=
  [(.plus, .add), (.minus, .subtract)]

def comparisonOperators : List (TokenKind × BinaryOp) :=
  [(.less, .less), (.lessEqual, .lessEqual), (.greater, .greater),
    (.greaterEqual, .greaterEqual)]

def equalityOperators : List (TokenKind × BinaryOp) :=
  [(.equalEqual, .equal), (.bangEqual, .notEqual)]

def parseFactor : Parse Expr :=
  parseBinary (parseUnary given) factorOperators

def parseTerm : Parse Expr :=
  parseBinary (parseFactor given) termOperators

def parseComparison : Parse Expr :=
  parseBinary (parseTerm given) comparisonOperators

def parseEquality : Parse Expr :=
  parseBinary (parseComparison given) equalityOperators

def parseAnd : Parse Expr :=
  parseBinary (parseEquality given) [(.andAnd, .and)]

def parseOr : Parse Expr :=
  parseBinary (parseAnd given) [(.orOr, .or)]

def sendDestinationClause : Parse (Option Expr) := do
  let addressed ← accept .to
  if addressed then do
    let destination ← parseOr given
    pure (some destination)
  else pure none

/-- Chained sends must be parenthesized. -/
def parseSend : Parse Expr := do
  let start ← start
  let connection ← parseOr given
  let sends ← accept .send
  if sends then do
    let data ← parseOr given
    let destination ← sendDestinationClause given
    let chained ← check .send
    if chained then error "parenthesize nested SEND expressions"
    else locateExpression (.send connection data destination) start
  else pure connection

def Expr.isTarget : Expr → Bool
  | .identifier _ | .property _ _ | .index _ _ => true
  | _ => false

def parseAssignment : Parse Expr := do
  let start ← start
  let target ← parseSend given
  let assigns ← accept .equal
  if assigns then
    if target.unspanned.isTarget then do
      let value ← given.assignment
      locateExpression (.assignment target value) start
    else do
      let sign ← previous
      errorAt sign "invalid assignment target"
  else pure target

def parseExpressionComplete : Parse Expr := do
  let node ← parseExpression given
  let _ ← consume .eof "expected end of expression"
  pure node

end Levels

end NetLang
