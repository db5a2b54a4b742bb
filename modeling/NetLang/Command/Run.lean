import NetLang.Diagnostic.Render
import NetLang.Interpreter.Entry
import NetLang.Parser.Statement
import NetLang.Syntax.Pretty

/-!
# The command line

A command shows the tokens or the tree of a source, checks it, or runs it.
Each stage hands its result to the next one, and the first one that fails ends
the command with its diagnostics.
-/

namespace NetLang

section Messages

/-- A message, and the part of the source it is about, if that is known. -/
structure Diagnostic where
  message : String
  span : Option Span
deriving DecidableEq, Repr

def SemanticError.diagnostic (error : SemanticError) : Diagnostic :=
  ⟨error.message ++ " (in " ++ " > ".intercalate error.context ++ ")",
    error.span⟩

/-- The innermost call comes first. -/
def RuntimeError.diagnostic (error : RuntimeError) : Diagnostic :=
  ⟨error.message ++ String.join (error.callStack.reverse.map fun name =>
    "\n  in function '" ++ name ++ "'"), error.span⟩

def ExecutionError.diagnostics : ExecutionError → List Diagnostic
  | .runtime error => [error.diagnostic]
  | .semantic errors => errors.map SemanticError.diagnostic

def locatedError (filename source : String) (diagnostic : Diagnostic) :
    String :=
  match diagnostic.span with
  | some span => renderSpan filename source span diagnostic.message
  | none =>
      "error: " ++ diagnostic.message ++ "\n --> " ++ filename ++ "\n"

end Messages

section Tokens

def TokenKind.name : TokenKind → String
  | .eof => "EOF"
  | .identifier => "IDENTIFIER"
  | .integer => "INTEGER"
  | .float => "FLOAT"
  | .string => "STRING"
  | .duration => "DURATION"
  | .let => "LET"
  | .fn => "FN"
  | .return => "RETURN"
  | .if => "IF"
  | .else => "ELSE"
  | .while => "WHILE"
  | .for => "FOR"
  | .in => "IN"
  | .match => "MATCH"
  | .parallel => "PARALLEL"
  | .true => "TRUE"
  | .false => "FALSE"
  | .null => "NULL"
  | .get => "GET"
  | .post => "POST"
  | .put => "PUT"
  | .patch => "PATCH"
  | .delete => "DELETE"
  | .head => "HEAD"
  | .plus => "PLUS"
  | .minus => "MINUS"
  | .star => "STAR"
  | .slash => "SLASH"
  | .percent => "PERCENT"
  | .equal => "EQUAL"
  | .equalEqual => "EQUAL_EQUAL"
  | .bang => "BANG"
  | .bangEqual => "BANG_EQUAL"
  | .less => "LESS"
  | .lessEqual => "LESS_EQUAL"
  | .greater => "GREATER"
  | .greaterEqual => "GREATER_EQUAL"
  | .andAnd => "AND_AND"
  | .orOr => "OR_OR"
  | .leftParen => "LEFT_PAREN"
  | .rightParen => "RIGHT_PAREN"
  | .leftBrace => "LEFT_BRACE"
  | .rightBrace => "RIGHT_BRACE"
  | .leftBracket => "LEFT_BRACKET"
  | .rightBracket => "RIGHT_BRACKET"
  | .comma => "COMMA"
  | .colon => "COLON"
  | .semicolon => "SEMICOLON"
  | .dot => "DOT"
  | .fatArrow => "FAT_ARROW"
  | .tcp => "TCP"
  | .udp => "UDP"
  | .send => "SEND"
  | .receive => "RECEIVE"
  | .to => "TO"
  | .using => "USING"
  | .break => "BREAK"
  | .continue => "CONTINUE"
  | .arrow => "ARROW"
  | .type => "TYPE"

/-- Names are filled up to sixteen characters. -/
def padded (name : String) : String :=
  name ++ String.ofList (List.replicate (16 - name.length) ' ')

/-- Escaping keeps a token on one output line. -/
def Token.shown (escapeDebug : String → String) (token : Token) : String :=
  padded token.kind.name ++ " " ++ escapeDebug token.lexeme ++ "\n"

end Tokens

inductive Command where
  | tokens | ast | check | run
deriving DecidableEq, Repr

def Command.ofName (name : String) : Option Command :=
  if name = "tokens" then some .tokens
  else if name = "ast" then some .ast
  else if name = "check" then some .check
  else if name = "run" then some .run
  else none

/-- How far a command got.  An execution may still be under way; a panic ends
the process. -/
inductive Command.Outcome where
  | shown (text : String)
  | failed (diagnostics : List Diagnostic)
  | executing
  | panicked
deriving DecidableEq, Repr

/-- An outcome, and the calls that were made of the host. -/
structure Performance where
  outcome : Command.Outcome
  calls : History effects

/-- What the standard library and the system do. -/
structure Surroundings where
  readToString : String → Except String String
  escapeDebug : String → String
  host : Host effects
  clock : Nat
  identity : Nat

section Stages

/-- Failures that stand for no outcome of the lexer end as a panic does. -/
def lexing (source : String) : Except Command.Outcome (List Token) :=
  match tokenize source with
  | .ok tokens => .ok tokens
  | .error (.error error) =>
      .error (.failed [⟨error.message,
        some (.point error.line error.column)⟩])
  | .error _ => .error .panicked

def parsing (tokens : List Token) : Except Command.Outcome Program :=
  match Parser.new tokens with
  | .error error => .error (.failed [⟨error.message, some error.span⟩])
  | .ok parser =>
      match parser.withSpans.parseProgram with
      | .ok program => .ok program
      | .error (.error error) =>
          .error (.failed [⟨error.message, some error.span⟩])
      | .error _ => .error .panicked

variable [Formatting]

/-- The interpreter with its own limits. -/
def Interpreter.execute (surroundings : Surroundings) (choices : List Nat)
    (program : Program) : Except ExecutionError (Machine effects Ending) :=
  executeWithLimits surroundings.host surroundings.clock
    surroundings.identity {} program choices

def checking (filename : String) (program : Program) : Command.Outcome :=
  match analyze program with
  | [] => .shown ("Semantic checks passed: " ++ filename ++ "\n")
  | errors => .failed (errors.map SemanticError.diagnostic)

/-- The outcome of an execution after some steps. -/
def executed (run : Machine effects Ending) : Command.Outcome :=
  match run.result? with
  | none => .executing
  | some (.ok _, _) => .shown ""
  | some (.error (.error error), _) => .failed [error.diagnostic]
  | some (.error .panic, _) | some (.error .outOfFuel, _) => .panicked

def running (surroundings : Surroundings) (choices : List Nat)
    (program : Program) : Performance :=
  match Interpreter.execute surroundings choices program with
  | .error error => ⟨.failed error.diagnostics, []⟩
  | .ok run => ⟨executed run, run.shared.calls⟩

/-- What the commands for programs do with one. -/
def performOn (surroundings : Surroundings) (choices : List Nat)
    (command : Command) (filename : String) (program : Program) :
    Performance :=
  if command = .check then ⟨checking filename program, []⟩
  else if command = .run then running surroundings choices program
  else ⟨.shown program.pretty, []⟩

/-- What a command does with the text of a file. -/
def perform (surroundings : Surroundings) (choices : List Nat)
    (command : Command) (filename source : String) : Performance :=
  match lexing source with
  | .error outcome => ⟨outcome, []⟩
  | .ok tokens =>
      if command = .tokens then
        ⟨.shown (String.join (tokens.map
          (Token.shown surroundings.escapeDebug))), []⟩
      else
        match parsing tokens with
        | .error outcome => ⟨outcome, []⟩
        | .ok program =>
            performOn surroundings choices command filename program

/-- The text of an outcome for the standard output or for the standard error;
there is none yet while a program is executed. -/
def Command.Outcome.printed (filename source : String) :
    Command.Outcome → Option (Except String String)
  | .shown text => some (.ok text)
  | .failed diagnostics =>
      some (.error (String.join
        (diagnostics.map (locatedError filename source))))
  | .executing | .panicked => none

def usage : String :=
  "Usage: netlang <tokens|ast|check|run> <file.net>\n"

/-- The command line without the name of the program. -/
def run (surroundings : Surroundings) (choices : List Nat) :
    List String → Option (Except String String)
  | [name, filename] =>
      match Command.ofName name with
      | none => some (.error usage)
      | some command =>
          match surroundings.readToString filename with
          | .error reason =>
              some (.error ("error: cannot read " ++ filename ++ ": " ++
                reason ++ "\n"))
          | .ok source =>
              (perform surroundings choices command filename
                source).outcome.printed filename source
  | [option] =>
      if option = "--help" ∨ option = "-h" then some (.ok usage)
      else some (.error usage)
  | _ => some (.error usage)

end Stages

end NetLang
