import NetLang.Lexer.Rules

/-!
# The scanner and the lexer

The generated scanner, the bridge that counts its positions, and the lexer
that copies its tokens.
-/

namespace NetLang

/-- The counters of the bridge, which are of the type `size_t`. -/
structure NetPosition where
  line : Nat
  column : Nat
  startLine : Nat
  startColumn : Nat
  commentLine : Nat
  commentColumn : Nat
deriving DecidableEq, Repr

namespace NetPosition

def succ (counter : Nat) : Nat :=
  (counter + 1) % 2 ^ 64

def count (position : NetPosition) (byte : UInt8) : NetPosition :=
  if byte = 10 then { position with line := succ position.line, column := 1 }
  else { position with column := succ position.column }

/-- What happens before the action of every matched rule. -/
def userAction (position : NetPosition) (text : List UInt8) : NetPosition :=
  text.foldl count
    { position with
      startLine := position.line
      startColumn := position.column }

end NetPosition

structure Scanner where
  rest : List UInt8
  condition : StartCondition
  position : NetPosition
deriving DecidableEq, Repr

/-- A call of the scanner ends with the kind and the text of a token.  A
scanner that no rule matches is jammed. -/
inductive Scanned where
  | found (kind : NetTokenKind) (text : List UInt8) (scanner : Scanner)
  | jammed
  | outOfFuel
deriving DecidableEq, Repr

namespace Scanner

def endOfFile (scanner : Scanner) : Scanned :=
  match scanner.condition with
  | .initial =>
      .found (.token .eof) []
        { scanner with
          position :=
            { scanner.position with
              startLine := scanner.position.line
              startColumn := scanner.position.column } }
  | .comment =>
      .found .unterminatedComment []
        { scanner with
          position :=
            { scanner.position with
              startLine := scanner.position.commentLine
              startColumn := scanner.position.commentColumn } }

/-- The scanner after the text of a rule. -/
def take (scanner : Scanner) (length : Nat) : Scanner :=
  { scanner with
    rest := scanner.rest.drop length
    position := scanner.position.userAction (scanner.rest.take length) }

def openComment (scanner : Scanner) : Scanner :=
  { scanner with
    condition := .comment
    position :=
      { scanner.position with
        commentLine := scanner.position.startLine
        commentColumn := scanner.position.startColumn } }

def begin (scanner : Scanner) (condition : StartCondition) : Scanner :=
  { scanner with condition := condition }

end Scanner

/-- Rules are matched until the action of one returns. -/
def yylex : Nat → Scanner → Scanned
  | 0, _ => .outOfFuel
  | fuel + 1, scanner =>
      match scanner.rest with
      | [] => scanner.endOfFile
      | _ :: _ =>
          match longestRule scanner.condition.rules scanner.rest with
          | none => .jammed
          | some (length, .skip) => yylex fuel (scanner.take length)
          | some (length, .openComment) =>
              yylex fuel (scanner.take length).openComment
          | some (length, .begin condition) =>
              yylex fuel ((scanner.take length).begin condition)
          | some (length, .ret kind) =>
              .found kind (scanner.rest.take length) (scanner.take length)

/-- What the bridge fills in. -/
structure NetToken where
  kind : Int
  text : List UInt8
  line : Nat
  column : Nat
deriving DecidableEq, Repr

structure LexerError where
  message : String
  line : Nat
  column : Nat
deriving DecidableEq, Repr

/-- The last two outcomes stand for no outcome of the lexer. -/
inductive LexerFailure where
  | error (error : LexerError)
  | jammed
  | outOfFuel
deriving DecidableEq, Repr

def lexerNext (scanner : Scanner) :
    Except LexerFailure (NetToken × Scanner) :=
  match yylex (scanner.rest.length + 1) scanner with
  | .found kind text scanner =>
      .ok (⟨kind.value, if kind.value ≤ 0 then [] else text,
        scanner.position.startLine, scanner.position.startColumn⟩, scanner)
  | .jammed => .error .jammed
  | .outOfFuel => .error .outOfFuel

namespace Utf8

/-- The bounds of the bytes that may follow a first byte. -/
def continuations (byte : UInt8) : List (UInt8 × UInt8) :=
  if 0xC2 ≤ byte ∧ byte ≤ 0xDF then [(0x80, 0xBF)]
  else if byte = 0xE0 then [(0xA0, 0xBF), (0x80, 0xBF)]
  else if byte = 0xED then [(0x80, 0x9F), (0x80, 0xBF)]
  else if 0xE1 ≤ byte ∧ byte ≤ 0xEF then [(0x80, 0xBF), (0x80, 0xBF)]
  else if byte = 0xF0 then [(0x90, 0xBF), (0x80, 0xBF), (0x80, 0xBF)]
  else if 0xF1 ≤ byte ∧ byte ≤ 0xF3 then
    [(0x80, 0xBF), (0x80, 0xBF), (0x80, 0xBF)]
  else if byte = 0xF4 then [(0x80, 0x8F), (0x80, 0xBF), (0x80, 0xBF)]
  else []

/-- How many bytes continue a sequence. -/
def continued : List (UInt8 × UInt8) → List UInt8 → Nat
  | (low, high) :: bounds, byte :: bytes =>
      if low ≤ byte ∧ byte ≤ high then continued bounds bytes + 1 else 0
  | _, _ => 0

/-- Every maximal part of an invalid sequence is replaced by one character. -/
def replaceInvalid : Nat → List UInt8 → List String
  | 0, _ => []
  | _ + 1, [] => []
  | fuel + 1, byte :: bytes =>
      let length := continued (continuations byte) bytes
      let piece := (byte :: bytes.take length).toByteArray
      (String.fromUTF8? piece).getD "\uFFFD" ::
        replaceInvalid fuel (bytes.drop length)

def fromUtf8Lossy (bytes : List UInt8) : String :=
  match String.fromUTF8? bytes.toByteArray with
  | some text => text
  | none => String.join (replaceInvalid bytes.length bytes)

end Utf8

/-- An ended lexer keeps its last result. -/
structure Lexer where
  scanner : Scanner
  terminal : Option (Except LexerError Token)

namespace Lexer

/-- The largest value of the C type `int`. -/
def intMax : Nat :=
  2 ^ 31 - 1

def new (source : String) : Except LexerFailure Lexer :=
  if (textBytes source).length > intMax - 2 then
    .error (.error
      ⟨"could not create lexer (source may be too large)", 1, 1⟩)
  else .ok ⟨⟨textBytes source, .initial, ⟨1, 1, 0, 0, 0, 0⟩⟩, none⟩

def errorMessage (kind : Int) : String :=
  match kind with
  | -2 => "unterminated block comment"
  | -3 => "unsupported string escape"
  | -4 => "unterminated string"
  | _ => "unexpected character"

def convert (token : NetToken) : Except LexerError Token :=
  match TokenKind.fromRaw token.kind with
  | some kind =>
      .ok ⟨kind, Utf8.fromUtf8Lossy token.text, token.line, token.column⟩
  | none => .error ⟨errorMessage token.kind, token.line, token.column⟩

def nextToken (lexer : Lexer) :
    Except LexerFailure (Except LexerError Token × Lexer) :=
  match lexer.terminal with
  | some result => .ok (result, lexer)
  | none => do
      let (token, scanner) ← lexerNext lexer.scanner
      let result := convert token
      return (result, ⟨scanner, if token.kind ≤ 0 then some result else none⟩)

def tokens : Nat → Lexer → Except LexerFailure (List Token)
  | 0, _ => .error .outOfFuel
  | fuel + 1, lexer => do
      let (result, lexer) ← lexer.nextToken
      match result with
      | .error error => .error (.error error)
      | .ok token =>
          if token.kind = .eof then return [token]
          let later ← tokens fuel lexer
          return token :: later

def tokenize (lexer : Lexer) : Except LexerFailure (List Token) :=
  lexer.tokens (lexer.scanner.rest.length + 1)

end Lexer

/-- The tokens of a source text. -/
def tokenize (source : String) : Except LexerFailure (List Token) := do
  let lexer ← Lexer.new source
  lexer.tokenize

end NetLang
