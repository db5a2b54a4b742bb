import NetLang.Parser.Literals

/-!
# The parser monad

A parser stands between the tokens it has consumed and those that remain; the
last of these is the end of the input.  Reading a token that is not there is a
panic.
-/

namespace NetLang

structure ParseError where
  message : String
  line : Nat
  column : Nat
  span : Span
deriving DecidableEq, Repr

/-- Why there is no result.  The fuel belongs to the model only. -/
inductive Failure where
  | error (error : ParseError)
  | panic
  | outOfFuel
deriving DecidableEq, Repr

/-- The tokens before the current one, last first, and the others. -/
structure Parser where
  past : List Token
  rest : List Token
  spans : Bool
  constructors : Bool
deriving DecidableEq, Repr

def Token.errorAt (token : Token) (message : String) : ParseError :=
  ⟨message, token.line, token.column, token.span⟩

/-- The end of the input must be the last token and no other one. -/
def Parser.new (tokens : List Token) : Except ParseError Parser :=
  match tokens.getLast? with
  | none => .error ⟨"token stream must end with a single EOF token", 1, 1,
      .point 1 1⟩
  | some last =>
      if last.kind ≠ .eof ∨ tokens.dropLast.any (·.kind = .eof) then
        .error (last.errorAt "token stream must end with a single EOF token")
      else .ok ⟨[], tokens, false, true⟩

def Parser.withSpans (parser : Parser) : Parser :=
  { parser with spans := true }

/-- A computation of a parser. -/
def Parse (α : Type) :=
  Parser → Except Failure (α × Parser)

namespace Parse

variable {α β : Type}

protected def pure (value : α) : Parse α :=
  fun parser => .ok (value, parser)

protected def bind (first : Parse α) (next : α → Parse β) : Parse β :=
  fun parser =>
    match first parser with
    | .ok (value, after) => next value after
    | .error failure => .error failure

instance : Monad Parse where
  pure := Parse.pure
  bind := Parse.bind

theorem run_pure (value : α) (parser : Parser) :
    (pure value : Parse α) parser = .ok (value, parser) :=
  rfl

theorem run_bind (first : Parse α) (next : α → Parse β) (parser : Parser) :
    (first >>= next) parser = Parse.bind first next parser :=
  rfl

theorem bind_assoc {γ : Type} (first : Parse α) (second : α → Parse β)
    (third : β → Parse γ) :
    first >>= second >>= third =
      first >>= fun value => second value >>= third := by
  funext parser
  simp only [run_bind, Parse.bind]
  cases first parser <;> rfl

theorem ite_bind {condition : Prop} [Decidable condition]
    (yes no : Parse α) (next : α → Parse β) :
    (if condition then yes else no) >>= next =
      if condition then yes >>= next else no >>= next := by
  split <;> rfl

def stop (failure : Failure) : Parse α :=
  fun _ => .error failure

def peek : Parse Token :=
  fun parser =>
    match parser.rest with
    | [] => .error .panic
    | token :: _ => .ok (token, parser)

def previous : Parse Token :=
  fun parser =>
    match parser.past with
    | [] => .error .panic
    | token :: _ => .ok (token, parser)

/-- The end of the input is never passed. -/
def advance : Parse Token :=
  fun parser =>
    match parser.rest with
    | [] => .error .panic
    | token :: rest =>
        if token.kind = .eof then .ok (token, parser)
        else .ok (token,
          { parser with past := token :: parser.past, rest := rest })

def check (kind : TokenKind) : Parse Bool := do
  let token ← peek
  pure (decide (token.kind = kind))

/-- Consume a token of a kind, if it comes next. -/
def accept (kind : TokenKind) : Parse Bool := do
  let found ← check kind
  if found then do
    let _ ← advance
    pure true
  else pure false

def errorAt (token : Token) (message : String) : Parse α :=
  stop (.error (token.errorAt message))

theorem errorAt_bind (token : Token) (message : String)
    (next : α → Parse β) :
    errorAt token message >>= next = errorAt token message :=
  rfl

def error (message : String) : Parse α := do
  let token ← peek
  errorAt token message

def consume (kind : TokenKind) (message : String) : Parse Token := do
  let found ← check kind
  if found then advance else error message

/-- The value of a literal token. -/
def literal (token : Token) : Except String α → Parse α
  | .ok value => pure value
  | .error message => errorAt token message

def start : Parse Position := do
  let token ← peek
  pure token.span.start

def spans : Parse Bool :=
  fun parser => .ok (parser.spans, parser)

/-- Whether a name before a brace begins a constructor. -/
def constructors : Parse Bool :=
  fun parser => .ok (parser.constructors, parser)

/-- Parse in a mode of constructors, and go back to the former one. -/
def delimited (constructors : Bool) (parse : Parse α) : Parse α :=
  fun parser =>
    match parse { parser with constructors := constructors } with
    | .ok (value, after) =>
        .ok (value, { after with constructors := parser.constructors })
    | .error failure => .error failure

/-- Repeat with as much fuel as there are tokens. -/
def repeated (loop : Nat → Parse α) : Parse α :=
  fun parser => loop parser.rest.length parser

/-- Items between commas, the last of which may be followed by one. -/
def itemsLoop (item : Parse α) (closing : TokenKind) :
    Nat → Parse (List α)
  | 0 => stop .outOfFuel
  | fuel + 1 => do
      let value ← item
      let more ← accept .comma
      let closed ← check closing
      if more && !closed then do
        let values ← itemsLoop item closing fuel
        pure (value :: values)
      else pure [value]

def items (item : Parse α) (closing : TokenKind) : Parse (List α) := do
  let closed ← check closing
  if closed then pure [] else repeated (itemsLoop item closing)

/-- Items up to a closing token or the end of the input. -/
def untilLoop (item : Parse α) (closing : TokenKind) :
    Nat → Parse (List α)
  | 0 => stop .outOfFuel
  | fuel + 1 => do
      let closed ← check closing
      let ended ← check .eof
      if closed || ended then pure []
      else do
        let value ← item
        let values ← untilLoop item closing fuel
        pure (value :: values)

def untilClosed (item : Parse α) (closing : TokenKind) : Parse (List α) :=
  repeated (untilLoop item closing)

end Parse

end NetLang
