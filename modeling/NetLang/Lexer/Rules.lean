import NetLang.Library.Regex
import NetLang.Lexer.Token

/-!
# Rules of the scanner

The start conditions, patterns and actions of the Flex file, and the numbers
by which the scanner and the lexer name the kinds of tokens.
-/

namespace NetLang

/-- What a call of the scanner returns. -/
inductive NetTokenKind where
  | token (kind : TokenKind)
  | unexpectedCharacter | unterminatedComment | invalidEscape
  | unterminatedString
deriving DecidableEq, Repr

namespace NetTokenKind

def value : NetTokenKind → Int
  | .token .eof => 0
  | .token .identifier => 1
  | .token .integer => 2
  | .token .float => 3
  | .token .string => 4
  | .token .duration => 5
  | .token .«let» => 6
  | .token .fn => 7
  | .token .«return» => 8
  | .token .«if» => 9
  | .token .«else» => 10
  | .token .«while» => 11
  | .token .«for» => 12
  | .token .«in» => 13
  | .token .«match» => 14
  | .token .parallel => 15
  | .token .«true» => 16
  | .token .«false» => 17
  | .token .null => 18
  | .token .get => 19
  | .token .post => 20
  | .token .put => 21
  | .token .patch => 22
  | .token .delete => 23
  | .token .head => 24
  | .token .plus => 25
  | .token .minus => 26
  | .token .star => 27
  | .token .slash => 28
  | .token .percent => 29
  | .token .equal => 30
  | .token .equalEqual => 31
  | .token .bang => 32
  | .token .bangEqual => 33
  | .token .less => 34
  | .token .lessEqual => 35
  | .token .greater => 36
  | .token .greaterEqual => 37
  | .token .andAnd => 38
  | .token .orOr => 39
  | .token .leftParen => 40
  | .token .rightParen => 41
  | .token .leftBrace => 42
  | .token .rightBrace => 43
  | .token .leftBracket => 44
  | .token .rightBracket => 45
  | .token .comma => 46
  | .token .colon => 47
  | .token .semicolon => 48
  | .token .dot => 49
  | .token .fatArrow => 50
  | .token .tcp => 51
  | .token .udp => 52
  | .token .send => 53
  | .token .receive => 54
  | .token .to => 55
  | .token .using => 56
  | .token .«break» => 57
  | .token .«continue» => 58
  | .token .arrow => 59
  | .token .type => 60
  | .unexpectedCharacter => -1
  | .unterminatedComment => -2
  | .invalidEscape => -3
  | .unterminatedString => -4

end NetTokenKind

def TokenKind.fromRaw : Int → Option TokenKind
  | 0 => some .eof
  | 1 => some .identifier
  | 2 => some .integer
  | 3 => some .float
  | 4 => some .string
  | 5 => some .duration
  | 6 => some .«let»
  | 7 => some .fn
  | 8 => some .«return»
  | 9 => some .«if»
  | 10 => some .«else»
  | 11 => some .«while»
  | 12 => some .«for»
  | 13 => some .«in»
  | 14 => some .«match»
  | 15 => some .parallel
  | 16 => some .«true»
  | 17 => some .«false»
  | 18 => some .null
  | 19 => some .get
  | 20 => some .post
  | 21 => some .put
  | 22 => some .patch
  | 23 => some .delete
  | 24 => some .head
  | 25 => some .plus
  | 26 => some .minus
  | 27 => some .star
  | 28 => some .slash
  | 29 => some .percent
  | 30 => some .equal
  | 31 => some .equalEqual
  | 32 => some .bang
  | 33 => some .bangEqual
  | 34 => some .less
  | 35 => some .lessEqual
  | 36 => some .greater
  | 37 => some .greaterEqual
  | 38 => some .andAnd
  | 39 => some .orOr
  | 40 => some .leftParen
  | 41 => some .rightParen
  | 42 => some .leftBrace
  | 43 => some .rightBrace
  | 44 => some .leftBracket
  | 45 => some .rightBracket
  | 46 => some .comma
  | 47 => some .colon
  | 48 => some .semicolon
  | 49 => some .dot
  | 50 => some .fatArrow
  | 51 => some .tcp
  | 52 => some .udp
  | 53 => some .send
  | 54 => some .receive
  | 55 => some .to
  | 56 => some .using
  | 57 => some .«break»
  | 58 => some .«continue»
  | 59 => some .arrow
  | 60 => some .type
  | _ => none

/-- The two tables of numbers agree. -/
@[simp] theorem fromRaw_value (kind : TokenKind) :
    TokenKind.fromRaw (NetTokenKind.value (.token kind)) = some kind := by
  cases kind <;> rfl

inductive StartCondition where
  | initial
  | comment
deriving DecidableEq, Repr

inductive RuleAction where
  | skip
  | openComment
  | begin (condition : StartCondition)
  | ret (kind : NetTokenKind)
deriving DecidableEq, Repr

/-- The bytes of a text of ASCII characters. -/
def letters (text : String) : List UInt8 :=
  text.toList.map fun c => UInt8.ofNat c.toNat

namespace Flex

def word (text : String) : Regex UInt8 :=
  .literal (letters text)

def oneOf (text : String) : UInt8 → Bool :=
  fun byte => (letters text).contains byte

def noneOf (text : String) : UInt8 → Bool :=
  fun byte => !(letters text).contains byte

def digit (byte : UInt8) : Bool :=
  48 ≤ byte && byte ≤ 57

def nameStart (byte : UInt8) : Bool :=
  (97 ≤ byte && byte ≤ 122) || (65 ≤ byte && byte ≤ 90) || byte == 95

def namePart (byte : UInt8) : Bool :=
  nameStart byte || digit byte

def digits : Regex UInt8 :=
  .plus (.symbol digit)

def duration : Regex UInt8 :=
  .seq digits (.alt (word "ms") (.alt (word "s") (word "m")))

def float : Regex UInt8 :=
  .seq digits (.seq (word ".") digits)

def identifier : Regex UInt8 :=
  .seq (.symbol nameStart) (.star (.symbol namePart))

/-- The inside of a string, given the bytes that may follow a backslash. -/
def stringBody (escapes : UInt8 → Bool) : Regex UInt8 :=
  .star (.alt (.symbol (noneOf "\"\\\n\r"))
    (.seq (word "\\") (.symbol escapes)))

def string (escapes : UInt8 → Bool) : Regex UInt8 :=
  .seq (word "\"") (.seq (stringBody escapes) (word "\""))

def unterminatedString (escapes : UInt8 → Bool) : Regex UInt8 :=
  .seq (word "\"") (stringBody escapes)

end Flex

/-- The words and signs that have one spelling, in the order of the rules. -/
def spellings : List (String × TokenKind) := [
  ("let", .«let»), ("fn", .fn), ("type", .type), ("return", .«return»),
  ("break", .«break»), ("continue", .«continue»), ("if", .«if»),
  ("else", .«else»), ("while", .«while»), ("for", .«for»), ("in", .«in»),
  ("match", .«match»), ("parallel", .parallel), ("true", .«true»),
  ("false", .«false»), ("null", .null), ("GET", .get), ("POST", .post),
  ("PUT", .put), ("PATCH", .patch), ("DELETE", .delete), ("HEAD", .head),
  ("TCP", .tcp), ("UDP", .udp), ("SEND", .send), ("RECEIVE", .receive),
  ("TO", .to), ("using", .using), ("+", .plus), ("-", .minus), ("*", .star),
  ("/", .slash), ("%", .percent), ("=", .equal), ("==", .equalEqual),
  ("!", .bang), ("!=", .bangEqual), ("<", .less), ("<=", .lessEqual),
  (">", .greater), (">=", .greaterEqual), ("&&", .andAnd), ("||", .orOr),
  ("(", .leftParen), (")", .rightParen), ("\x7b", .leftBrace),
  ("\x7d", .rightBrace), ("[", .leftBracket), ("]", .rightBracket),
  (",", .comma), (":", .colon), (";", .semicolon), (".", .dot),
  ("=>", .fatArrow), ("->", .arrow)]

def initialRules : List (Regex UInt8 × RuleAction) :=
  [(.plus (.symbol (Flex.oneOf " \t\r\n")), .skip),
    (.seq (Flex.word "//") (.star (.symbol (Flex.noneOf "\n"))), .skip),
    (Flex.word "/*", .openComment)] ++
  spellings.map (fun entry =>
    (Flex.word entry.1, .ret (.token entry.2))) ++
  [(Flex.duration, .ret (.token .duration)),
    (Flex.float, .ret (.token .float)),
    (Flex.digits, .ret (.token .integer)),
    (Flex.identifier, .ret (.token .identifier)),
    (Flex.string (Flex.oneOf "ntr\"\\"), .ret (.token .string)),
    (Flex.string (Flex.noneOf "\n\r"), .ret .invalidEscape),
    (Flex.unterminatedString (Flex.noneOf "\n\r"),
      .ret .unterminatedString),
    (.symbol (Flex.noneOf "\n"), .ret .unexpectedCharacter)]

def commentRules : List (Regex UInt8 × RuleAction) :=
  [(Flex.word "*/", .begin .initial),
    (.plus (.symbol (Flex.noneOf "*\n")), .skip),
    (Flex.word "*", .skip),
    (Flex.word "\n", .skip)]

/-- The start condition of comments is an exclusive one. -/
def StartCondition.rules : StartCondition → List (Regex UInt8 × RuleAction)
  | .initial => initialRules
  | .comment => commentRules

end NetLang
