import NetLang.Interpreter.Evaluator

/-!
# Evaluation of expressions
-/

namespace NetLang

open Interp

variable [Formatting]

def expressions (self : Evaluator) (point : Point) (env : Environment) :
    Nat → List Expr → Interp (List Value)
  | _, [] => pure []
  | i, value :: rest => do
      let value ← self.expression (i :: point) value env
      let values ← expressions self point env (i + 1) rest
      pure (value :: values)

def objectFields (self : Evaluator) (point : Point) (env : Environment) :
    Nat → List (String × Expr) → SortedMap Value → Interp (SortedMap Value)
  | _, [], values => pure values
  | i, (key, value) :: rest, values => do
      let value ← self.expression (i :: point) value env
      objectFields self point env (i + 1) rest
        (SortedMap.insert values key value)

/-- Fields of a constructor; a field that is not declared is not checked. -/
def constructorFields (self : Evaluator) (point : Point)
    (env : Environment) (definition : List TypeField) :
    Nat → List (String × Expr) → SortedMap Value → Interp (SortedMap Value)
  | _, [], values => pure values
  | i, (key, expression) :: rest, values => do
      let value ← self.expression (i :: point) expression env
      let types ← types
      let declared := definition.find? fun field => field.name == key
      let expected := declared.bind fun field =>
        types.resolve field.annotated.name
      relocate (expression.span.or ·) (check point expected value)
      constructorFields self point env definition (i + 1) rest
        (SortedMap.insert values key value)

def construct (self : Evaluator) (point : Point) (env : Environment)
    (name : String) (fields : List (String × Expr)) : Interp Value := do
  let types ← types
  match types.resolve name with
  | some (.named id) => do
      let definition ← attempt point (types.fields id).get
      let values ← constructorFields self point env definition 0 fields []
      pure (.record types.identity id name values)
  | _ => fail point (.unknownNamedType name)

/-- The field of a configuration object that holds an address. -/
def addressKey : Transport → String
  | .udp => "bind"
  | .tcp => "listen"

/-- The address of a configuration object, which has no other field. -/
def configuredAddress (transport : Transport) (fields : SortedMap Value) :
    Except ErrorKind String :=
  match fields.length, SortedMap.get? fields (addressKey transport) with
  | 1, some (.string address) => .ok address
  | 1, some _ => .error (.configurationAddress (addressKey transport))
  | _, _ => .error (.configurationFields (addressKey transport))

/-- The host operation of a configuration object. -/
def openConfigured (point : Point) (transport : Transport)
    (address : String) : Interp Value :=
  match transport with
  | .udp => call point (.bindUdp address)
  | .tcp => call point (.listenTcp address)

def connect (point : Point) (transport : Transport)
    (protocol : Option String) : Value → Interp Value
  | .object fields =>
      if protocol.isSome then fail point .configurationProtocol
      else do
        let address ← lift point (configuredAddress transport fields)
        openConfigured point transport address
  | .string address => call point (.connect transport address protocol)
  | _ => fail point .connectionAddress

def sendDestination (self : Evaluator) (point : Point)
    (env : Environment) : Option Expr → Interp (Option String)
  | none => pure none
  | some destination => do
      let value ← self.expression (2 :: point) destination env
      match value with
      | .string text => pure (some text)
      | _ => fail point .sendDestination

def request (self : Evaluator) (point : Point) (env : Environment)
    (method : HttpMethod) (config : Option Expr) :
    Value → Interp Value
  | .string url => do
      let config ← match config with
        | some config => self.expression (1 :: point) config env
        | none => pure (.object [])
      call point (.request method url config)
  | _ => fail point .requestUrl

def identifier (point : Point) (env : Environment) (name : String) :
    Interp Value := do
  let id ← resolve point env name
  read point id

/-- `&&` and `||` evaluate their right operand on demand. -/
def logical (self : Evaluator) (point : Point) (env : Environment)
    (op : BinaryOp) (right : Expr) (left : Value) : Interp Value := do
  let left ← lift point left.asBoolean
  if (op = .and ∧ left = false) ∨ (op = .or ∧ left = true) then
    pure (.boolean left)
  else do
    let right ← self.expression (1 :: point) right env
    let right ← lift point right.asBoolean
    pure (.boolean right)

/-- Reading an index; bytes have their own errors. -/
def index (object index : Value) : Except ErrorKind Value :=
  match object, index with
  | .bytes bytes, .integer index =>
      if index.toInt < 0 then .error .byteIndexNegative
      else
        match bytes[index.toInt.toNat]? with
        | some byte => .ok (.integer (Int64.ofInt byte.toNat))
        | none => .error .byteIndexBounds
  | .bytes _, _ => .error .byteIndexType
  | object, index => object.get (.index index)

/-- The arena slot and the selectors of an assignment target. -/
def target (self : Evaluator) (env : Environment) :
    Point → Expr → Interp (Nat × List Selector)
  | point, .located span expression =>
      withSpan (some span) (target self env point expression)
  | point, .identifier name => do
      tick point
      let id ← resolve point env name
      pure (id, [])
  | point, .property object name => do
      tick point
      let (root, selectors) ← target self env (0 :: point) object
      pure (root, selectors ++ [.property name])
  | point, .index object index => do
      tick point
      let (root, selectors) ← target self env (0 :: point) object
      let index ← self.expression (1 :: point) index env
      pure (root, selectors ++ [.index index])
  | point, _ => do
      tick point
      fail point .assignmentRoot

/-- Write a value, or the root that holds it under the selectors. -/
def store (point : Point) (id : Nat) (selectors : List Selector)
    (value : Value) : Interp Unit :=
  if selectors.isEmpty then do
    checkBinding point id value
    write id value
  else do
    let root ← read point id
    let types ← types
    let root ← attempt point (root.set types selectors value)
    checkBinding point id root
    write id root

/-- An assignment once its target is resolved. -/
def assign (self : Evaluator) (point : Point) (env : Environment)
    (target value : Expr) (id : Nat) (selectors : List Selector) :
    Interp Value :=
  reported (.assigned point target env id selectors) do
    checkAssignable point id
    let value ← self.expression (1 :: point) value env
    observe (.storing point id selectors value)
    store point id selectors value
    pure value

def expressionInner (self : Evaluator) (point : Point)
    (env : Environment) : Expr → Interp Value
  | .construct name fields => construct self point env name fields
  | .located _ _ => stop .panic
  | .connection transport address protocol => do
      let address ← self.expression (0 :: point) address env
      connect point transport protocol address
  | .send connection data destination => do
      let connection ← self.expression (0 :: point) connection env
      let data ← self.expression (1 :: point) data env
      let destination ← sendDestination self point env destination
      call point (.send connection data destination)
  | .receive connection => do
      let connection ← self.expression (0 :: point) connection env
      call point (.receive connection)
  | .request method url config => do
      let url ← self.expression (0 :: point) url env
      request self point env method config url
  | .integer value => pure (.integer value)
  | .float value => pure (.float value)
  | .string value => pure (.string value)
  | .boolean value => pure (.boolean value)
  | .null => pure .null
  | .duration value => pure (.duration value)
  | .identifier name => identifier point env name
  | .array values => do
      let values ← expressions self point env 0 values
      pure (.array values)
  | .object fields => do
      let fields ← objectFields self point env 0 fields []
      pure (.object fields)
  | .unary operator expression => do
      let value ← self.expression (0 :: point) expression env
      lift point (unary operator value)
  | .binary left op right => do
      let left ← self.expression (0 :: point) left env
      if op = .and ∨ op = .or then logical self point env op right left
      else do
        let right ← self.expression (1 :: point) right env
        attempt point (binary left op right)
  | .call callee arguments => do
      let callee ← self.expression (0 :: point) callee env
      let arguments ← expressions self point env 1 arguments
      callValue self point callee arguments
  | .property object name => do
      let object ← self.expression (0 :: point) object env
      lift point (object.get (.property name))
  | .index object subscript => do
      let object ← self.expression (0 :: point) object env
      let subscript ← self.expression (1 :: point) subscript env
      lift point (index object subscript)
  | .assignment left value => do
      let (id, selectors) ← target self env (0 :: point) left
      assign self point env left value id selectors

/-- Every unlocated node costs one step and one level of nesting. -/
def expressionNode (self : Evaluator) (point : Point) (env : Environment)
    (expression : Expr) : Interp Value :=
  observed (.evaluating point expression env)
      (.evaluated point expression env) do
    tick point
    nested point (expressionInner self point env expression)

def expression (self : Evaluator) (point : Point) :
    Expr → Environment → Interp Value
  | .located span inner, env =>
      withSpan (some span) (expression self point inner env)
  | node, env => expressionNode self point env node

/-- What holds of every node, and is kept by locations, holds of every
expression. -/
theorem expression_induction {property : Interp Value → Prop}
    {self : Evaluator} {point : Point} {env : Environment}
    (located : ∀ span comp, property comp →
      property (withSpan (some span) comp))
    (unlocated : ∀ node, property (expressionNode self point env node))
    (node : Expr) : property (expression self point node env) := by
  fun_induction expression self point node env with
  | case1 span inner env induction =>
      exact located span _ (induction unlocated)
  | case2 node env other => exact unlocated node

end NetLang
