import NetLang.Runtime.Host
import NetLang.Types.Registry

/-!
# Interpreter state

Bindings and functions live in arenas that only grow, so a captured
environment is a list of maps from names to arena slots.

Some data is carried for reasoning only and never read by the interpreter:
program points, which name a position in the unlocated syntax tree; the steps
an interpreter asked for; and, in a worker, the snapshot it started from and
the parallel statements whose workers surround it.
-/

namespace NetLang

/-- A path to a node, innermost index first.  Location wrappers do not count
as nodes. -/
abbrev Point := List Nat

/-- The runtime errors of the interpreter, one constructor for each text. -/
inductive ErrorKind where
  | stepLimit
  | callDepth
  | expressionDepth
  | undefinedName (name : String)
  | uninitialized
  | typeExpected (expected actual : String)
  | booleanExpected (actual : String)
  | unknownNamedType (name : String)
  | forArray
  | parallelArray
  | loopControlInFunction
  | invalidFunctionHandle
  | argumentCount (name : String) (expected actual : Nat)
  | cannotCall (typeName : String)
  | functionAssignment
  | capturedAssignment
  | assignmentRoot
  | configurationProtocol
  | configurationFields (key : String)
  | configurationAddress (key : String)
  | connectionAddress
  | sendDestination
  | requestUrl
  | integerOverflow
  | invalidUnary (typeName : String)
  | unordered
  | concatenation
  | divisionByZero
  | integerOperation
  | durationOperation
  | inexactInteger
  | floatOperation
  | floatNotFinite
  | invalidBinary (left right : String)
  | byteIndexType
  | byteIndexNegative
  | byteIndexBounds
  | recordField (typeName key : String)
  | objectField (key : String)
  | missingField (key : String)
  | arrayIndexNegative
  | arrayIndexBounds (index length : Nat)
  | invalidAccess (typeName : String)
  | invalidAssignmentAccess
  | foreignRecord
  | timeoutRange
  | byteRange
  | invalidUtf8 (position : Nat)
  | byteLength
  | unsupportedArgument (name typeName : String)
  | host (message : String)
  | outputLimit
  | threadRefused (index : Nat) (reason : String)
  | iterationPanicked (index : Nat)
  | breakIteration
  | returnIteration
  | iteration (index : Nat) (kind : ErrorKind)
  | workerLimit
  | mainParameters
deriving DecidableEq, Repr

namespace ErrorKind

def message : ErrorKind → String
  | stepLimit => "execution step limit exceeded"
  | callDepth => "function call depth limit exceeded"
  | expressionDepth => "expression depth limit exceeded"
  | undefinedName name => s!"undefined name '{name}'"
  | uninitialized => "binding was used before its initializer executed"
  | typeExpected expected actual => s!"expected {expected}, got {actual}"
  | booleanExpected actual => s!"expected boolean, got {actual}"
  | unknownNamedType name => s!"unknown named type '{name}'"
  | forArray => "for requires an array"
  | parallelArray => "parallel requires an array"
  | loopControlInFunction => "loop control cannot exit a function"
  | invalidFunctionHandle => "invalid function handle"
  | argumentCount name expected actual =>
      s!"function '{name}' expects {expected} argument(s), got {actual}"
  | cannotCall typeName => s!"cannot call {typeName}"
  | functionAssignment => "cannot assign to a function binding"
  | capturedAssignment => "cannot assign to a read-only parallel capture"
  | assignmentRoot => "assignment must be rooted in a mutable variable"
  | configurationProtocol =>
      "listener/bind configuration does not support a protocol"
  | configurationFields key =>
      s!"connection configuration requires exactly one '{key}' field"
  | configurationAddress key => s!"{key} address must be a string"
  | connectionAddress => "connection address must be a string"
  | sendDestination => "SEND destination must be a string"
  | requestUrl => "request URL must be a string"
  | integerOverflow => "integer overflow"
  | invalidUnary typeName => s!"invalid unary operation on {typeName}"
  | unordered => "values cannot be ordered"
  | concatenation => "string concatenation requires scalar values"
  | divisionByZero => "division by zero"
  | integerOperation => "integer overflow or invalid integer operation"
  | durationOperation => "duration overflow or invalid duration operation"
  | inexactInteger => "integer cannot be represented exactly as a float"
  | floatOperation => "invalid float operation"
  | floatNotFinite => "float result is not finite"
  | invalidBinary left right =>
      s!"invalid binary operation on {left} and {right}"
  | byteIndexType => "byte index must be an integer"
  | byteIndexNegative => "byte index must be nonnegative"
  | byteIndexBounds => "byte index out of bounds"
  | recordField typeName key => s!"type '{typeName}' has no field '{key}'"
  | objectField key => s!"object has no field '{key}'"
  | missingField key => s!"missing field '{key}'"
  | arrayIndexNegative => "array index must be nonnegative"
  | arrayIndexBounds index length =>
      s!"array index {index} is out of bounds (length {length})"
  | invalidAccess typeName =>
      s!"invalid property/index access on {typeName}"
  | invalidAssignmentAccess => "invalid assignment property/index"
  | foreignRecord => "cannot mutate a named value from another execution"
  | timeoutRange =>
      "set_timeout requires a duration from 1ms through 24h"
  | byteRange => "bytes requires integers in 0..255"
  | invalidUtf8 position =>
      s!"decode_utf8: invalid UTF-8 at byte {position}"
  | byteLength => "byte length exceeds integer range"
  | unsupportedArgument name typeName =>
      s!"{name} received unsupported {typeName} argument"
  | host message => message
  | outputLimit => "parallel output buffer limit exceeded"
  | threadRefused index reason =>
      s!"cannot start parallel iteration {index}: {reason}"
  | iterationPanicked index => s!"parallel iteration {index} panicked"
  | breakIteration => "break cannot exit a parallel iteration"
  | returnIteration => "return cannot exit a parallel iteration"
  | iteration index kind => s!"parallel iteration {index}: {kind.message}"
  | workerLimit => "parallel worker limit must be between 1 and 64"
  | mainParameters => "entry point 'main' must have no parameters"

end ErrorKind

/-- A runtime error; `origin` is the point of the node that raised it. -/
structure RuntimeError where
  kind : ErrorKind
  callStack : List String
  span : Option Span
  origin : Point
deriving DecidableEq, Repr

namespace RuntimeError

def message (error : RuntimeError) : String :=
  error.kind.message

end RuntimeError

/-- Why a computation ended without a value.  A panic is a Rust panic; the
fuel belongs to the model only. -/
inductive Stop where
  | error (error : RuntimeError)
  | panic
  | outOfFuel
deriving DecidableEq, Repr

abbrev Result (α : Type) := Except Stop α

/-- The innermost scope comes first. -/
abbrev Environment := List (NameMap Nat)

structure Limits where
  steps : Nat := 1000000
  callDepth : Nat := 128
  expressionDepth : Nat := 256
  parallelWorkers : Nat := 4
  parallelOutputBytes : Nat := 1024 * 1024
deriving DecidableEq, Repr

structure Binding where
  annotated : Option ResolvedType
  value : Option Value
  mutable : Bool
deriving Repr

/-- A function of the arena; `point` is that of its declaration. -/
structure Function where
  name : String
  parameters : List Parameter
  returnType : Option ResolvedType
  returnSpan : Option Span
  body : Stmt
  closure : Environment
  point : Point
deriving Repr

inductive Flow where
  | normal
  | «break»
  | «continue»
  | «return» (value : Value)
deriving Repr

inductive Selector where
  | property (name : String)
  | index (value : Value)
deriving Repr

/-- The buffer of a worker's print output. -/
structure WorkerBuffer where
  output : List String
  outputBytes : Nat
  outputLimit : Nat
deriving DecidableEq, Repr

/-- The host of an interpreter.  Worker output is buffered. -/
structure RuntimeState where
  host : HostId
  forks : Nat
  buffer : Option WorkerBuffer
deriving DecidableEq, Repr

/-- What the workers of a parallel statement start from. -/
structure Snapshot where
  types : TypeRegistry
  span : Option Span
  bindings : List Binding
  functions : List Function
  env : Environment
  callStack : List String
  workers : List Point
deriving Repr

structure Interpreter where
  types : TypeRegistry
  returnType : Option ResolvedType
  currentSpan : Option Span
  runtime : RuntimeState
  bindings : List Binding
  functions : List Function
  limits : Limits
  expressionDepth : Nat
  callStack : List String
  capturedBindings : Nat
  inParallelWorker : Bool
  attempts : Nat
  workers : List Point
  snapshot : Option Snapshot
deriving Repr

/-- One iteration of a parallel statement, with everything its thread gets.
The clock is the model's fuel. -/
structure Worker where
  clock : Nat
  point : Point
  variableName : String
  body : Stmt
  snapshot : Snapshot
  limits : Limits
  index : Nat
  value : Value
  host : HostId
deriving Repr

structure Outcome where
  output : List String
  result : Except RuntimeError Unit
deriving Repr

/-- How the thread of a worker ends. -/
inductive WorkerEnd where
  | finished (outcome : Outcome)
  | panicked
  | outOfFuel
deriving Repr

/-- What can be seen of a running interpreter, besides its effects. -/
inductive Observation where
  | evaluating (point : Point) (expression : Expr) (env : Environment)
      (state : Interpreter)
  | evaluated (point : Point) (expression : Expr) (env : Environment)
      (before : Interpreter) (result : Result Value) (after : Interpreter)
  | executing (point : Point) (statement : Stmt) (env : Environment)
      (state : Interpreter)
  | executed (point : Point) (statement : Stmt) (env : Environment)
      (before : Interpreter) (result : Result (Flow × Environment))
      (after : Interpreter)
  | returned (function : Function) (before : Interpreter)
      (result : Result Value) (after : Interpreter)
  | assigned (point : Point) (target : Expr) (env : Environment) (id : Nat)
      (selectors : List Selector) (before : Interpreter)
      (result : Result Value) (after : Interpreter)
  | joined (point : Point) (before : Interpreter) (result : Result Unit)
      (after : Interpreter)
  | storing (point : Point) (id : Nat) (selectors : List Selector)
      (value : Value) (state : Interpreter)
  | entering (point : Point) (body : Stmt) (state : Interpreter)

/-- The effects of the interpreter. -/
abbrev effects : Signature where
  Call := HostId × HostCall
  Reply := fun call => Except String call.2.Answer
  Job := Worker
  End := WorkerEnd
  Refusal := String
  Note := Observation

end NetLang
