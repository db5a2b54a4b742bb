import NetLang.Interpreter.Monad
import NetLang.Interpreter.Operations

/-!
# The evaluator

The mutual recursion of the interpreter is tied by fuel: an evaluator runs
expressions, bodies and while loops, and `Evaluator.step` gives the next
evaluator, whose nested expressions, bodies and loops are run by the given
one.  Location wrappers are peeled off without fuel.
-/

namespace NetLang

open Interp

/-- The recursive entry points, with the fuel that is left to them. -/
structure Evaluator where
  clock : Nat
  expression : Point → Expr → Environment → Interp Value
  body : Point → Stmt → Environment → Interp (Flow × Environment)
  whileLoop : Point → Expr → Stmt → Environment → Interp Flow

namespace Environment

/-- Lookup walks from the innermost scope. -/
def resolve (env : Environment) (name : String) : Option Nat :=
  env.findSome? fun scope => NameMap.get? scope name

/-- Declare a name in the innermost scope, if there is one. -/
def declare (env : Environment) (name : String) (id : Nat) :
    Option Environment :=
  match env with
  | [] => none
  | scope :: outer => some (NameMap.insert scope name id :: outer)

end Environment

namespace WorkerBuffer

/-- Sums of sizes are checked in `usize`. -/
def checkedSize (size : Nat) : Option Nat :=
  if size < 2 ^ 64 then some size else none

/-- Buffer one line and its newline, within the limit. -/
def push (buffer : WorkerBuffer) (text : String) : Option WorkerBuffer :=
  match (checkedSize (text.utf8ByteSize + 1)).bind fun size =>
      checkedSize (buffer.outputBytes + size) with
  | none => none
  | some bytes =>
      if bytes ≤ buffer.outputLimit then
        some ⟨buffer.output ++ [text], bytes, buffer.outputLimit⟩
      else none

end WorkerBuffer

namespace Interp

/-- Print through the host, or into the buffer of a worker. -/
def print (point : Point) (text : String) : Interp Unit :=
  fun state =>
    match state.runtime.buffer with
    | none => call point (.print text) state
    | some buffer =>
        match buffer.push text with
        | none => fail point .outputLimit state
        | some buffer => .ret (.ok (), { state with
            runtime := { state.runtime with buffer := some buffer } })

/-- A fresh host for a parallel iteration. -/
def fork (point : Point) : Interp HostId := do
  call point .fork
  fun state => .ret (.ok (state.runtime.forks :: state.runtime.host),
    { state with
      runtime := { state.runtime with forks := state.runtime.forks + 1 } })

/-- The result of an operation that may panic. -/
def attempt {α : Type} (point : Point) : Except Fault α → Interp α
  | .ok value => Interp.pure value
  | .error (.kind kind) => fail point kind
  | .error .panic => stop .panic

def types : Interp TypeRegistry :=
  fun state => .ret (.ok state.types, state)

def location : Interp (Option Span) :=
  fun state => .ret (.ok state.currentSpan, state)

def allocate (binding : Binding) : Interp Nat :=
  fun state => .ret (.ok state.bindings.length,
    { state with bindings := state.bindings ++ [binding] })

/-- An index outside the arena of bindings is a panic. -/
def binding (id : Nat) : Interp Binding :=
  fun state =>
    match state.bindings[id]? with
    | some binding => .ret (.ok binding, state)
    | none => .ret (.error .panic, state)

def read (point : Point) (id : Nat) : Interp Value := do
  let binding ← binding id
  match binding.value with
  | some value => pure value
  | none => fail point .uninitialized

/-- A write outside the arena is a panic, too. -/
def write (id : Nat) (value : Value) : Interp Unit :=
  fun state =>
    if id < state.bindings.length then
      .ret (.ok (), { state with
        bindings := state.bindings.modify id fun binding =>
          { binding with value := some value } })
    else .ret (.error .panic, state)

/-- A state with a new value in one slot. -/
def written (state : Interpreter) (id : Nat) (value : Value) : Interpreter :=
  { state with
    bindings := state.bindings.modify id fun binding =>
      { binding with value := some value } }

def check (point : Point) (expected : Option ResolvedType) (value : Value) :
    Interp Unit :=
  fun state => attempt point (state.types.checkValueType expected value) state

def checkBinding (point : Point) (id : Nat) (value : Value) :
    Interp Unit := do
  let binding ← binding id
  check point binding.annotated value

def checkReturn (point : Point) (value : Value) : Interp Unit :=
  fun state => check point state.returnType value state

/-- A binding may be assigned if it is mutable and was not captured. -/
def checkAssignable (point : Point) (id : Nat) : Interp Unit := do
  let binding ← binding id
  if binding.mutable = false then fail point .functionAssignment
  else fun state =>
    if id < state.capturedBindings then fail point .capturedAssignment state
    else .ret (.ok (), state)

/-- The function of a handle, for a call with a number of arguments. -/
def function (point : Point) (id given : Nat) : Interp Function :=
  fun state =>
    if state.limits.callDepth ≤ state.callStack.length then
      fail point .callDepth state
    else
      match state.functions[id]? with
      | none => fail point .invalidFunctionHandle state
      | some function =>
          if given ≠ function.parameters.length then
            fail point (.argumentCount function.name
              function.parameters.length given) state
          else .ret (.ok function, state)

def resolve (point : Point) (env : Environment) (name : String) :
    Interp Nat :=
  match env.resolve name with
  | some id => pure id
  | none => fail point (.undefinedName name)

def annotationType (annotated : Option TypeAnnotation) :
    Interp (Option ResolvedType) :=
  fun state => .ret
    (.ok (annotated.bind fun a => state.types.resolve a.name), state)

end Interp

section Builtins

/-- Read characters up to the first bytes that are none. -/
def scanUtf8 : Nat → List UInt8 → Nat
  | 0, _ => 0
  | fuel + 1, bytes =>
      match bytes.toByteArray.utf8DecodeChar? 0 with
      | some c => c.utf8Size + scanUtf8 fuel (bytes.drop c.utf8Size)
      | none => 0

def validUpTo (bytes : List UInt8) : Nat :=
  scanUtf8 bytes.length bytes

def decodeUtf8 (bytes : List UInt8) : Except ErrorKind Value :=
  match String.fromUTF8? ⟨bytes.toArray⟩ with
  | some text => .ok (.string text)
  | none => .error (.invalidUtf8 (validUpTo bytes))

def toByte : Value → Except ErrorKind UInt8
  | .integer value =>
      if 0 ≤ value.toInt ∧ value.toInt < 256 then
        .ok (UInt8.ofNat value.toInt.toNat)
      else .error .byteRange
  | _ => .error .byteRange

def toBytes : List Value → Except ErrorKind (List UInt8)
  | [] => .ok []
  | value :: rest => do
      let byte ← toByte value
      let bytes ← toBytes rest
      .ok (byte :: bytes)

def byteLength (bytes : List UInt8) : Except ErrorKind Value :=
  if bytes.length < 2 ^ 63 then
    .ok (.integer (Int64.ofNat bytes.length))
  else .error .byteLength

/-- The helpers that need no host. -/
def pureBuiltin : Builtin → Value → Except ErrorKind Value
  | .bytes, .array values => do .ok (.bytes (← toBytes values))
  | .encodeUtf8, .string text => .ok (.bytes text.toUTF8.toList)
  | .decodeUtf8, .bytes bytes => decodeUtf8 bytes
  | .byteLen, .bytes bytes => byteLength bytes
  | builtin, value =>
      .error (.unsupportedArgument builtin.name value.typeName)

def setTimeout (point : Point) (argument : Value) (rest : List Value) :
    Interp Value :=
  match rest with
  | [.duration milliseconds] =>
      if 1 ≤ milliseconds.toNat ∧ milliseconds.toNat ≤ 86400000 then do
        call point (.setTimeout argument milliseconds)
        pure .null
      else fail point .timeoutRange
  | _ => fail point .timeoutRange

def callBuiltin (point : Point) (builtin : Builtin)
    (arguments : List Value) : Interp Value :=
  if arguments.length ≠ builtin.arity then
    fail point
      (.argumentCount builtin.name builtin.arity arguments.length)
  else
    match builtin, arguments with
    | _, [] => stop .panic
    | .setTimeout, argument :: rest => setTimeout point argument rest
    | .accept, listener :: _ => call point (.accept listener)
    | .localAddress, connection :: _ => do
        let address ← call point (.localAddress connection)
        pure (.string address)
    | .close, connection :: _ => do
        call point (.close connection)
        pure .null
    | builtin, argument :: _ => lift point (pureBuiltin builtin argument)

end Builtins

section Calls

variable [Formatting]

/-- Parameters are bound in order; a later one shadows an earlier one. -/
def bindParameters (point : Point) :
    List Parameter → List Value → NameMap Nat → Interp (NameMap Nat)
  | parameter :: parameters, value :: arguments, bound => do
      let annotated ← annotationType parameter.annotated
      check point annotated value
      let id ← allocate ⟨annotated, some value, true⟩
      bindParameters point parameters arguments
        (NameMap.insert bound parameter.name id)
  | _, _, bound => pure bound

/-- What the flow of a function's body means for its caller. -/
def finishCall (point : Point) (function : Function) : Flow → Interp Value
  | .normal => do
      relocate (function.returnSpan.or ·)
        (check point function.returnType .null)
      pure .null
  | .break | .continue => fail point .loopControlInFunction
  | .return value => pure value

def enterFunction (self : Evaluator) (point : Point) (function : Function)
    (parameters : NameMap Nat) : Interp Value :=
  reported (.returned function) <|
    framed function.name function.returnType do
      let (flow, _) ← self.body (0 :: function.point) function.body
        (parameters :: function.closure)
      finishCall point function flow

def callFunction (self : Evaluator) (point : Point) (id : Nat)
    (arguments : List Value) : Interp Value := do
  let function ← function point id arguments.length
  let parameters ← bindParameters point function.parameters arguments []
  enterFunction self point function parameters

def callValue (self : Evaluator) (point : Point) (callee : Value)
    (arguments : List Value) : Interp Value :=
  match callee with
  | .builtin builtin => callBuiltin point builtin arguments
  | .print => do
      print point (" ".intercalate (arguments.map Value.display))
      pure .null
  | .function id => callFunction self point id arguments
  | value => fail point (.cannotCall value.typeName)

end Calls

end NetLang
