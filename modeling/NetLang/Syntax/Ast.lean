import NetLang.Library.Binary64

/-!
# Abstract syntax

The tree shared by the parser, the analyzer and the interpreter.  Locations
are optional: a `located` node wraps an expression, a statement or a pattern
without changing what it means.
-/

namespace NetLang

/-- One-based line and UTF-8 byte column. -/
structure Position where
  line : Nat
  column : Nat
deriving DecidableEq, Repr

/-- A half-open source range. -/
structure Span where
  start : Position
  finish : Position
deriving DecidableEq, Repr

structure TypeAnnotation where
  name : String
  span : Option Span := none
deriving DecidableEq, Repr

structure TypeField where
  name : String
  annotated : TypeAnnotation
deriving DecidableEq, Repr

structure Parameter where
  name : String
  annotated : Option TypeAnnotation := none
deriving DecidableEq, Repr

inductive PrimitiveType where
  | int | float | bool | string | duration | bytes
deriving DecidableEq, Repr

namespace PrimitiveType

def fromName : String → Option PrimitiveType
  | "int" => some .int
  | "float" => some .float
  | "bool" => some .bool
  | "string" => some .string
  | "duration" => some .duration
  | "bytes" => some .bytes
  | _ => none

def name : PrimitiveType → String
  | .int => "int"
  | .float => "float"
  | .bool => "bool"
  | .string => "string"
  | .duration => "duration"
  | .bytes => "bytes"

theorem name_of_fromName {text : String} {primitive : PrimitiveType}
    (found : fromName text = some primitive) : primitive.name = text := by
  unfold fromName at found
  split at found <;> simp_all [name] <;> subst found <;> rfl

end PrimitiveType

inductive UnaryOp where
  | not | negate
deriving DecidableEq, Repr

inductive BinaryOp where
  | add | subtract | multiply | divide | remainder
  | less | lessEqual | greater | greaterEqual
  | equal | notEqual | and | or
deriving DecidableEq, Repr

inductive HttpMethod where
  | get | post | put | patch | delete | head
deriving DecidableEq, Repr

inductive Transport where
  | tcp | udp
deriving DecidableEq, Repr

/-- Expressions.  A duration is in milliseconds; the fields of a constructor
or an object keep their written order. -/
inductive Expr where
  | construct (name : String) (fields : List (String × Expr))
  | located (span : Span) (expression : Expr)
  | connection (transport : Transport) (address : Expr)
      (protocol : Option String)
  | send (connection data : Expr) (destination : Option Expr)
  | receive (connection : Expr)
  | request (method : HttpMethod) (url : Expr) (config : Option Expr)
  | integer (value : Int64)
  | float (value : Binary64)
  | string (value : String)
  | boolean (value : Bool)
  | null
  | duration (milliseconds : UInt64)
  | identifier (name : String)
  | array (values : List Expr)
  | object (fields : List (String × Expr))
  | unary (operator : UnaryOp) (expression : Expr)
  | binary (left : Expr) (operator : BinaryOp) (right : Expr)
  | assignment (target value : Expr)
  | call (callee : Expr) (arguments : List Expr)
  | property (object : Expr) (name : String)
  | index (object index : Expr)
deriving Repr

inductive Pattern where
  | located (span : Span) (pattern : Pattern)
  | integer (value : Int64)
  | string (value : String)
  | boolean (value : Bool)
  | null
  | wildcard
deriving DecidableEq, Repr

inductive Stmt where
  | type (name : String) (fields : List TypeField)
  | «break»
  | «continue»
  | located (span : Span) (statement : Stmt)
  | parallel (variableName : String) (iterable : Expr) (body : Stmt)
  | «match» (expression : Expr) (arms : List (Pattern × Stmt))
  | «let» (name : String) (annotated : Option TypeAnnotation) (value : Expr)
  | expression (expression : Expr)
  | block (statements : List Stmt)
  | «if» (condition : Expr) (thenBranch : Stmt) (elseBranch : Option Stmt)
  | «while» (condition : Expr) (body : Stmt)
  | «for» (variableName : String) (iterable : Expr) (body : Stmt)
  | function (name : String) (parameters : List Parameter)
      (returnAnnotated : Option TypeAnnotation) (body : Stmt)
  | «return» (value : Option Expr)
deriving Repr

structure Program where
  statements : List Stmt
deriving Repr

namespace Expr

def unspanned : Expr → Expr
  | .located _ inner => inner.unspanned
  | expression => expression

def span : Expr → Option Span
  | .located span _ => some span
  | _ => none

theorem unspanned_ne_located (node : Expr) (span : Span)
    (inner : Expr) : node.unspanned ≠ .located span inner := by
  match node with
  | .located _ node => exact unspanned_ne_located node span inner
  | .construct _ _ | .connection _ _ _ | .send _ _ _ | .receive _
  | .request _ _ _ | .integer _ | .float _ | .string _ | .boolean _ | .null
  | .duration _ | .identifier _ | .array _ | .object _ | .unary _ _
  | .binary _ _ _ | .assignment _ _ | .call _ _ | .property _ _
  | .index _ _ => exact nofun

end Expr

namespace Stmt

def unspanned : Stmt → Stmt
  | .located _ inner => inner.unspanned
  | statement => statement

def span : Stmt → Option Span
  | .located span _ => some span
  | _ => none

theorem unspanned_ne_located (node : Stmt) (span : Span) (inner : Stmt) :
    node.unspanned ≠ .located span inner := by
  match node with
  | .located _ node => exact unspanned_ne_located node span inner
  | .type _ _ | .break | .continue | .parallel _ _ _ | .match _ _
  | .let _ _ _ | .expression _ | .block _ | .if _ _ _ | .while _ _
  | .for _ _ _ | .function _ _ _ _ | .return _ => exact nofun

end Stmt

namespace Pattern

def unspanned : Pattern → Pattern
  | .located _ inner => inner.unspanned
  | pattern => pattern

end Pattern

end NetLang
