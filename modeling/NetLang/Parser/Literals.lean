import NetLang.Lexer.Token

/-!
# Literals

The texts of literal tokens as values.  Numbers are read as the standard
library reads them: a sign may stand before the digits of a number.
-/

namespace NetLang

/-- The value of decimal digits; there must be one. -/
def digitsValue (digits : List Char) : Option Nat :=
  if digits.isEmpty || !digits.all Char.isDigit then none
  else some (digits.foldl
    (fun value digit => value * 10 + (digit.toNat - '0'.toNat)) 0)

/-- Text without a sign, and whether it was a minus. -/
def splitSign : List Char → Bool × List Char
  | '-' :: rest => (true, rest)
  | '+' :: rest => (false, rest)
  | text => (false, text)

def signed (negative : Bool) (magnitude : Nat) : Int :=
  if negative then -magnitude else magnitude

def parseInt64 (text : List Char) : Option Int64 := do
  let magnitude ← digitsValue (splitSign text).2
  let value := signed (splitSign text).1 magnitude
  if -2 ^ 63 ≤ value ∧ value < 2 ^ 63 then some (Int64.ofInt value) else none

/-- An unsigned number has no minus. -/
def parseUInt64 (text : List Char) : Option Nat := do
  let digits := match text with
    | '+' :: rest => rest
    | text => text
  let value ← digitsValue digits
  if value < 2 ^ 64 then some value else none

/-- The digits before a character, and what follows it. -/
def splitAtChar (stop : Char → Bool) (text : List Char) :
    List Char × Option (List Char) :=
  match text.span fun c => !stop c with
  | (before, []) => (before, none)
  | (before, _ :: after) => (before, some after)

def exponentValue : Option (List Char) → Option Int
  | none => some 0
  | some text => do
      let magnitude ← digitsValue (splitSign text).2
      some (signed (splitSign text).1 magnitude)

/-- The number that digits around a point and an exponent denote. -/
def decimalValue (whole fraction : List Char) (exponent : Int) :
    Option ℚ := do
  let digits ← digitsValue (whole ++ fraction)
  some (digits * (10 : ℚ) ^ (exponent - fraction.length))

def parseDecimal (text : List Char) : Option ℚ := do
  let (mantissa, exponent) := splitAtChar (fun c => c = 'e' || c = 'E') text
  let (whole, fraction) := splitAtChar (· = '.') mantissa
  let exponent ← exponentValue exponent
  decimalValue whole (fraction.getD []) exponent

def parseFloat (text : List Char) : Option Binary64 :=
  let (negative, magnitude) := splitSign text
  match String.ofList (magnitude.map Char.toLower) with
  | "inf" | "infinity" => some (.infinity negative)
  | "nan" => some .nan
  | _ => (parseDecimal magnitude).map fun value =>
      if negative then (Binary64.round false value).neg
      else Binary64.round false value

/-- The text without a suffix, if it ends with that. -/
def stripSuffix (suffix text : List Char) : Option (List Char) :=
  if suffix.isSuffixOf text then
    some (text.take (text.length - suffix.length))
  else none

/-- The digits of a duration and what they count, in milliseconds. -/
def durationParts (text : List Char) : Option (List Char × Nat) :=
  match stripSuffix ['m', 's'] text with
  | some digits => some (digits, 1)
  | none =>
      match stripSuffix ['s'] text with
      | some digits => some (digits, 1000)
      | none => (stripSuffix ['m'] text).map fun digits => (digits, 60000)

/-- The text between the quotes of a string literal. -/
def quoted : List Char → Option (List Char)
  | '"' :: rest => stripSuffix ['"'] rest
  | _ => none

def escaped : Char → Option Char
  | 'n' => some '\n'
  | 't' => some '\t'
  | 'r' => some '\r'
  | '"' => some '"'
  | '\\' => some '\\'
  | _ => none

def decodeEscapes : List Char → Option (List Char)
  | [] => some []
  | ['\\'] => none
  | '\\' :: code :: rest => do
      let c ← escaped code
      let decoded ← decodeEscapes rest
      some (c :: decoded)
  | c :: rest => do
      let decoded ← decodeEscapes rest
      some (c :: decoded)

namespace Token

def integer (token : Token) : Except String Int64 :=
  match parseInt64 token.lexeme.toList with
  | some value => .ok value
  | none => .error "integer is out of range"

def float (token : Token) : Except String Binary64 :=
  match parseFloat token.lexeme.toList with
  | none => .error "invalid float"
  | some value =>
      if value.isFinite then .ok value else .error "float is out of range"

def duration (token : Token) : Except String UInt64 :=
  match durationParts token.lexeme.toList with
  | none => .error "invalid duration"
  | some (digits, multiplier) =>
      match parseUInt64 digits with
      | none => .error "duration is out of range"
      | some count =>
          if count * multiplier < 2 ^ 64 then
            .ok (UInt64.ofNat (count * multiplier))
          else .error "duration is out of range"

def decodeString (token : Token) : Except String String :=
  match quoted token.lexeme.toList with
  | none => .error "invalid string"
  | some content =>
      match decodeEscapes content with
      | none => .error "unsupported string escape"
      | some decoded => .ok (String.ofList decoded)

end Token

end NetLang
