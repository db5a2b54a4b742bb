import NetLang.Syntax.Ast

/-!
# Tokens

The tokens that the lexer hands to the parser, and their places in the
source.
-/

namespace NetLang

inductive TokenKind where
  | eof
  | identifier | integer | float | string | duration
  | «let» | fn | «return» | «if» | «else» | «while» | «for» | «in» | «match»
  | parallel | «true» | «false» | null
  | get | post | put | patch | delete | head
  | plus | minus | star | slash | percent
  | equal | equalEqual | bang | bangEqual
  | less | lessEqual | greater | greaterEqual | andAnd | orOr
  | leftParen | rightParen | leftBrace | rightBrace | leftBracket
  | rightBracket | comma | colon | semicolon | dot | fatArrow
  | tcp | udp | send | receive | to | using | «break» | «continue» | arrow
  | type
deriving DecidableEq, Repr

/-- The column counts UTF-8 bytes; both counts start at one. -/
structure Token where
  kind : TokenKind
  lexeme : String
  line : Nat
  column : Nat
deriving DecidableEq, Repr

/-- The UTF-8 bytes of a text. -/
def textBytes (text : String) : List UInt8 :=
  text.toUTF8.data.toList

/-- Counts of lines and columns stop at the largest `usize`. -/
def saturatingSucc (count : Nat) : Nat :=
  min (count + 1) (2 ^ 64 - 1)

/-- The position after one more byte of source text. -/
def Position.advance (position : Position) (byte : UInt8) : Position :=
  if byte = 10 then ⟨saturatingSucc position.line, 1⟩
  else ⟨position.line, saturatingSucc position.column⟩

namespace Span

def point (line column : Nat) : Span :=
  ⟨⟨line, column⟩, ⟨line, column⟩⟩

/-- The range of raw source text. -/
def fromText (start : Position) (text : String) : Span :=
  ⟨start, (textBytes text).foldl Position.advance start⟩

end Span

namespace Token

def span (token : Token) : Span :=
  .fromText ⟨token.line, token.column⟩
    (if token.kind = .eof then "" else token.lexeme)

end Token

end NetLang
