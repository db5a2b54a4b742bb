import NetLang.Library.NameMap
import NetLang.Syntax.Ast

/-!
# Runtime values

Values are copied; only functions and connections are handles.  A record
carries the identity of the execution that constructed it, so that a value
kept by a host cannot satisfy a named type of another execution.
-/

namespace NetLang

/-- Standard helpers with explicit runtime dispatch for resource effects. -/
inductive Builtin where
  | bytes | encodeUtf8 | decodeUtf8 | byteLen
  | close | setTimeout | accept | localAddress
deriving DecidableEq, Repr

namespace Builtin

def all : List Builtin :=
  [.bytes, .encodeUtf8, .decodeUtf8, .byteLen, .close, .setTimeout, .accept,
    .localAddress]

def name : Builtin → String
  | .bytes => "bytes"
  | .encodeUtf8 => "encode_utf8"
  | .decodeUtf8 => "decode_utf8"
  | .byteLen => "byte_len"
  | .close => "close"
  | .setTimeout => "set_timeout"
  | .accept => "accept"
  | .localAddress => "local_address"

def arity (builtin : Builtin) : Nat :=
  if builtin = .setTimeout then 2 else 1

end Builtin

inductive Value where
  | record (identity typeId : Nat) (name : String)
      (fields : List (String × Value))
  | integer (value : Int64)
  | float (value : Binary64)
  | string (value : String)
  | bytes (value : List UInt8)
  | connection (id : UInt64)
  | boolean (value : Bool)
  | null
  | duration (milliseconds : UInt64)
  | array (values : List Value)
  | object (fields : List (String × Value))
  | function (id : Nat)
  | print
  | builtin (builtin : Builtin)
deriving Repr

/-- The text conversions of the standard library that programs can observe:
the display of a float and the quoted display of a string. -/
class Formatting where
  displayFloat : Binary64 → String
  debugString : String → String

namespace Value

def typeName : Value → String
  | .record _ _ name _ => name
  | .integer _ => "integer"
  | .float _ => "float"
  | .string _ => "string"
  | .bytes _ => "bytes"
  | .connection _ => "connection"
  | .boolean _ => "boolean"
  | .null => "null"
  | .duration _ => "duration"
  | .array _ => "array"
  | .object _ => "object"
  | .function _ | .print | .builtin _ => "function"

mutual

/-- Structural equality; records also compare their execution and type. -/
def equal : Value → Value → Bool
  | .record identity typeId _ fields, .record identity' typeId' _ fields' =>
      identity == identity' && typeId == typeId' && equalFields fields fields'
  | .integer a, .integer b => a == b
  | .float a, .float b => a.equal b
  | .string a, .string b => a == b
  | .bytes a, .bytes b => a == b
  | .connection a, .connection b => a == b
  | .boolean a, .boolean b => a == b
  | .null, .null => true
  | .duration a, .duration b => a == b
  | .array a, .array b => equalList a b
  | .object a, .object b => equalFields a b
  | .function a, .function b => a == b
  | .print, .print => true
  | .builtin a, .builtin b => a == b
  | _, _ => false

def equalList : List Value → List Value → Bool
  | [], [] => true
  | a :: as, b :: bs => a.equal b && equalList as bs
  | _, _ => false

def equalFields :
    List (String × Value) → List (String × Value) → Bool
  | [], [] => true
  | (k, a) :: as, (k', b) :: bs => k == k' && a.equal b && equalFields as bs
  | _, _ => false

end

section Display

variable [Formatting]

def displayBytes (bytes : List UInt8) : String :=
  "bytes[" ++ ", ".intercalate (bytes.map fun byte => toString byte.toNat)
    ++ "]"

/-- Inside a container, strings are quoted. -/
def nested : Value → String → String
  | .string text, _ => Formatting.debugString text
  | _, text => text

mutual

/-- The text that `print` and string concatenation produce. -/
def display : Value → String
  | .record _ _ name fields => name ++ " \x7b" ++ displayRecord fields ++ "\x7d"
  | .integer v => toString v.toInt
  | .float v => Formatting.displayFloat v
  | .string v => v
  | .bytes v => displayBytes v
  | .connection _ => "<connection>"
  | .boolean v => if v then "true" else "false"
  | .null => "null"
  | .duration v => toString v.toNat ++ "ms"
  | .function _ | .print | .builtin _ => "<function>"
  | .array values => "[" ++ displayList values ++ "]"
  | .object fields => "\x7b" ++ displayObject fields ++ "\x7d"

def displayList : List Value → String
  | [] => ""
  | [value] => value.nested value.display
  | value :: rest => value.nested value.display ++ ", " ++ displayList rest

def displayRecord : List (String × Value) → String
  | [] => ""
  | [(key, value)] => key ++ ": " ++ value.nested value.display
  | (key, value) :: rest =>
      key ++ ": " ++ value.nested value.display ++ ", " ++ displayRecord rest

def displayObject : List (String × Value) → String
  | [] => ""
  | [(key, value)] => Formatting.debugString key ++ ": " ++ value.nested value.display
  | (key, value) :: rest =>
      Formatting.debugString key ++ ": " ++ value.nested value.display ++ ", "
        ++ displayObject rest

end

end Display

end Value

end NetLang
