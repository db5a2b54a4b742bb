import NetLang.Interpreter.State

/-!
# Pure operations on values

Operators, selectors and runtime type checks.  They fail with the kind of the
error that the interpreter raises.
-/

namespace NetLang

/-- The failure of an operation: an error, or a panic. -/
inductive Fault where
  | kind (kind : ErrorKind)
  | panic

/-- Where a read has failed, the program panics. -/
def Read.get {α : Type} (read : Read α) : Except Fault α :=
  if read.failed then .error .panic else .ok read.value

/-- The result of an operation that does not panic. -/
def Fault.ofKind {α : Type} : Except ErrorKind α → Except Fault α
  | .ok value => .ok value
  | .error reason => .error (.kind reason)

/-- An `i64` result, unless it overflows. -/
def checkedInteger (value : Int) : Option Int64 :=
  if -2 ^ 63 ≤ value ∧ value < 2 ^ 63 then some (Int64.ofInt value) else none

/-- A `u64` result, unless it overflows. -/
def checkedDuration (value : Int) : Option UInt64 :=
  if 0 ≤ value ∧ value < 2 ^ 64 then some (UInt64.ofNat value.toNat) else none

/-- Avoid rounding large integers when comparing them with floats. -/
def compareIntFloat (integer : Int64) (float : Binary64) : Option Ordering :=
  if float.isNaN then none
  else if (float.partialCompare (.ofInt 9223372036854775808)).any (·.isGE) then
    some .lt
  else if (float.partialCompare (.ofInt (-9223372036854775808))).any
      (·.isLT) then
    some .gt
  else
    match compare integer.toInt (Binary64.truncate float.toRat) with
    | .eq => some (compare 0 float.fract)
    | order => some order

def compareValues : Value → Value → Option Ordering
  | .integer a, .integer b => some (compare a.toInt b.toInt)
  | .float a, .float b => a.partialCompare b
  | .integer a, .float b => compareIntFloat a b
  | .float a, .integer b => (compareIntFloat b a).map .swap
  | .string a, .string b => some (compare a b)
  | .duration a, .duration b => some (compare a.toNat b.toNat)
  | _, _ => none

def equalValues : Value → Value → Bool
  | .integer a, .float b | .float b, .integer a =>
      compareIntFloat a b == some .eq
  | a, b => a.equal b

def exactFloat (value : Int64) : Except ErrorKind Binary64 :=
  let float := Binary64.ofInt value.toInt
  if Binary64.truncate float.toRat ≠ value.toInt then .error .inexactInteger
  else .ok float

def floatBinary (a : Binary64) (op : BinaryOp) (b : Binary64) :
    Except ErrorKind Value :=
  if (op = .divide ∨ op = .remainder) ∧ b.equal (.zero false) then
    .error .divisionByZero
  else
    let value : Option Binary64 := match op with
      | .add => some (a.add b)
      | .subtract => some (a.sub b)
      | .multiply => some (a.mul b)
      | .divide => some (a.div b)
      | .remainder => some (a.rem b)
      | _ => none
    match value with
    | none => .error .floatOperation
    | some value =>
        if value.isFinite then .ok (.float value) else .error .floatNotFinite

def integerBinary (a : Int64) (op : BinaryOp) (b : Int64) :
    Except ErrorKind Value :=
  if (op = .divide ∨ op = .remainder) ∧ b.toInt = 0 then
    .error .divisionByZero
  else
    let value := match op with
      | .add => checkedInteger (a.toInt + b.toInt)
      | .subtract => checkedInteger (a.toInt - b.toInt)
      | .multiply => checkedInteger (a.toInt * b.toInt)
      | .divide => checkedInteger (a.toInt.tdiv b.toInt)
      | .remainder =>
          if a.toInt = -2 ^ 63 ∧ b.toInt = -1 then none
          else checkedInteger (a.toInt.tmod b.toInt)
      | _ => none
    match value with
    | none => .error .integerOperation
    | some value => .ok (.integer value)

def durationBinary (a : UInt64) (op : BinaryOp) (b : UInt64) :
    Except ErrorKind Value :=
  let value := match op with
    | .add => checkedDuration (a.toNat + b.toNat)
    | .subtract => checkedDuration (a.toNat - b.toNat)
    | _ => none
  match value with
  | none => .error .durationOperation
  | some value => .ok (.duration value)

/-- The values that string concatenation refuses. -/
def Value.isCompound : Value → Bool
  | .array _ | .record _ _ _ _ | .object _ | .function _ | .print
  | .builtin _ | .bytes _ | .connection _ => true
  | _ => false

def Value.isString : Value → Bool
  | .string _ => true
  | _ => false

def BinaryOp.isOrder : BinaryOp → Bool
  | .less | .lessEqual | .greater | .greaterEqual => true
  | _ => false

/-- No other operator compares. -/
def BinaryOp.holds : BinaryOp → Ordering → Option Bool
  | .less, order => some order.isLT
  | .lessEqual, order => some !order.isGT
  | .greater, order => some order.isGT
  | .greaterEqual, order => some !order.isLT
  | _, _ => none

/-- The comparison of two ordered values. -/
def orderBinary (left : Value) (op : BinaryOp) (right : Value) :
    Except Fault Value :=
  match compareValues left right with
  | none => .error (.kind .unordered)
  | some order =>
      match op.holds order with
      | some answer => .ok (.boolean answer)
      | none => .error .panic

/-- The operators that evaluate both operands. -/
def binary [Formatting] (left : Value) (op : BinaryOp) (right : Value) :
    Except Fault Value :=
  if op = .equal then .ok (.boolean (equalValues left right))
  else if op = .notEqual then .ok (.boolean !(equalValues left right))
  else if op.isOrder then orderBinary left op right
  else if op = .add ∧ (left.isString ∨ right.isString) then
    if left.isCompound ∨ right.isCompound then
      .error (.kind .concatenation)
    else .ok (.string (left.display ++ right.display))
  else
    match left, right with
    | .bytes a, .bytes b =>
        if op = .add then .ok (.bytes (a ++ b))
        else .error (.kind (.invalidBinary "bytes" "bytes"))
    | .integer a, .integer b => Fault.ofKind (integerBinary a op b)
    | .duration a, .duration b => Fault.ofKind (durationBinary a op b)
    | .float a, .float b => Fault.ofKind (floatBinary a op b)
    | .integer a, .float b =>
        Fault.ofKind (do floatBinary (← exactFloat a) op b)
    | .float a, .integer b =>
        Fault.ofKind (do floatBinary a op (← exactFloat b))
    | a, b => .error (.kind (.invalidBinary a.typeName b.typeName))

def unary : UnaryOp → Value → Except ErrorKind Value
  | .not, .boolean v => .ok (.boolean !v)
  | .negate, .integer v =>
      match checkedInteger (-v.toInt) with
      | some value => .ok (.integer value)
      | none => .error .integerOverflow
  | .negate, .float v => .ok (.float v.neg)
  | _, v => .error (.invalidUnary v.typeName)

def Value.asBoolean : Value → Except ErrorKind Bool
  | .boolean value => .ok value
  | value => .error (.booleanExpected value.typeName)

/-- Whether a value has a type, in the execution of a registry. -/
def TypeRegistry.admits (types : TypeRegistry) : ResolvedType → Value → Bool
  | .named id, .record identity typeId _ _ =>
      typeId == id && identity == types.identity
  | .primitive .int, .integer _ => true
  | .primitive .float, .float _ => true
  | .primitive .bool, .boolean _ => true
  | .primitive .string, .string _ => true
  | .primitive .duration, .duration _ => true
  | .primitive .bytes, .bytes _ => true
  | _, _ => false

def TypeRegistry.checkValueType (types : TypeRegistry)
    (expected : Option ResolvedType) (value : Value) :
    Except Fault Unit :=
  match expected with
  | none => .ok ()
  | some expected =>
      if types.admits expected value then .ok ()
      else
        match (types.name expected).get with
        | .ok name => .error (.kind (.typeExpected name value.typeName))
        | .error fault => .error fault

/-- A check against a type that has a definition does not panic. -/
theorem TypeRegistry.checkValueType_defined {types : TypeRegistry}
    {expected : Option ResolvedType} {value : Value}
    (defined : ∀ ty, expected = some ty → types.Defines ty) :
    types.checkValueType expected value ≠ .error .panic := by
  unfold checkValueType
  cases expected with
  | none => nofun
  | some ty =>
      have named : (types.name ty).get = .ok (types.name ty).value := by
        rw [Read.get, name_failed (defined ty rfl)]
        rfl
      dsimp only
      rw [named]
      split <;> nofun

/-- The key of a selector that can name a field. -/
def Selector.key? : Selector → Option String
  | .property key => some key
  | .index (.string key) => some key
  | _ => none

def Selector.position? : Selector → Option Int64
  | .index (.integer position) => some position
  | _ => none

def Value.get (value : Value) (selector : Selector) :
    Except ErrorKind Value :=
  match value, selector.key?, selector.position? with
  | .record _ _ name fields, some key, _ =>
      match SortedMap.get? fields key with
      | some field => .ok field
      | none => .error (.recordField name key)
  | .object fields, some key, _ =>
      match SortedMap.get? fields key with
      | some field => .ok field
      | none => .error (.objectField key)
  | .array values, _, some index =>
      if index.toInt < 0 then .error .arrayIndexNegative
      else
        match values[index.toInt.toNat]? with
        | some element => .ok element
        | none => .error (.arrayIndexBounds index.toInt.toNat values.length)
  | value, _, _ => .error (.invalidAccess value.typeName)

/-- Replace the value under a path of selectors. -/
def Value.set (types : TypeRegistry) (root : Value) :
    List Selector → Value → Except Fault Value
  | [], value => .ok value
  | selector :: rest, value =>
      match root, selector.key?, selector.position? with
      | .record identity typeId name fields, some key, _ =>
          if identity ≠ types.identity then .error (.kind .foreignRecord)
          else if types.definitions.length ≤ typeId then .error .panic
          else
            match types.field? typeId key with
            | none => .error (.kind (.recordField name key))
            | some field =>
                let expected :=
                  if rest.isEmpty then types.resolve field.annotated.name
                  else none
                match types.checkValueType expected value with
                | .error fault => .error fault
                | .ok () =>
                    match SortedMap.get? fields key with
                    | none => .error (.kind (.missingField key))
                    | some child =>
                        match child.set types rest value with
                        | .error fault => .error fault
                        | .ok child => .ok (.record identity typeId name
                            (SortedMap.insert fields key child))
      | .object fields, some key, _ =>
          if rest.isEmpty then .ok (.object (SortedMap.insert fields key value))
          else
            match SortedMap.get? fields key with
            | none => .error (.kind (.objectField key))
            | some child =>
                match child.set types rest value with
                | .error fault => .error fault
                | .ok child =>
                    .ok (.object (SortedMap.insert fields key child))
      | .array values, _, some index =>
          if index.toInt < 0 then .error (.kind .arrayIndexNegative)
          else
            match values[index.toInt.toNat]? with
            | none => .error
                (.kind (.arrayIndexBounds index.toInt.toNat values.length))
            | some child =>
                match child.set types rest value with
                | .error fault => .error fault
                | .ok child =>
                    .ok (.array (values.set index.toInt.toNat child))
      | _, _, _ => .error (.kind .invalidAssignmentAccess)

end NetLang
