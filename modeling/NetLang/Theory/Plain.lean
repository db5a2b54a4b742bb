import NetLang.Theory.Hoisting

/-!
# Errors of operations

The errors of the pure operations on values.  None of them is about a name, a
call, an assignment, a jump or an iteration.
-/

namespace NetLang

/-- Names, calls, assignments, jumps and parallel statements have errors of
their own. -/
def ErrorKind.Plain : ErrorKind → Prop
  | .undefinedName _ | .argumentCount _ _ _ | .functionAssignment
  | .capturedAssignment | .loopControlInFunction | .breakIteration
  | .returnIteration | .iterationPanicked _ | .iteration _ _ => False
  | _ => True

/-- An operation whose errors are plain. -/
def Plainly {α : Type} (result : Except ErrorKind α) : Prop :=
  ∀ kind, result = .error kind → kind.Plain

variable {α β : Type}

theorem plainly_ok (value : α) : Plainly (.ok value) := nofun

theorem plainly_error {kind : ErrorKind} (plain : kind.Plain) :
    Plainly (.error kind : Except ErrorKind α) := by
  rintro _ ⟨⟩
  exact plain

theorem Plainly.bind {first : Except ErrorKind α}
    {rest : α → Except ErrorKind β} (plain : Plainly first)
    (next : ∀ value, Plainly (rest value)) :
    Plainly (first >>= rest) := by
  cases first with
  | ok value => exact next value
  | error kind => exact plainly_error (plain kind rfl)

/-- The same of an operation that may panic. -/
def FailsPlainly (result : Except Fault α) : Prop :=
  ∀ kind, result = .error (.kind kind) → kind.Plain

theorem failsPlainly_ok (value : α) : FailsPlainly (.ok value) := nofun

theorem failsPlainly_error {kind : ErrorKind} (plain : kind.Plain) :
    FailsPlainly (.error (.kind kind) : Except Fault α) := by
  rintro _ ⟨⟩
  exact plain

theorem get_failsPlainly (read : Read α) : FailsPlainly read.get := by
  unfold Read.get
  split <;> nofun

theorem Plainly.fails {result : Except ErrorKind α} (plain : Plainly result) :
    FailsPlainly (Fault.ofKind result) := by
  cases result with
  | ok value => exact failsPlainly_ok value
  | error kind => exact failsPlainly_error (plain kind rfl)

theorem exactFloat_plain (value : Int64) :
    Plainly (exactFloat value) := by
  unfold exactFloat
  extract_lets float
  split
  · exact plainly_error trivial
  · exact plainly_ok _

theorem integerBinary_plain (a : Int64) (op : BinaryOp) (b : Int64) :
    Plainly (integerBinary a op b) := by
  unfold integerBinary
  split
  · exact plainly_error trivial
  · extract_lets result
    cases result with
    | none => exact plainly_error trivial
    | some value => exact plainly_ok _

theorem durationBinary_plain (a : UInt64) (op : BinaryOp)
    (b : UInt64) : Plainly (durationBinary a op b) := by
  unfold durationBinary
  extract_lets result
  cases result with
  | none => exact plainly_error trivial
  | some value => exact plainly_ok _

theorem floatBinary_plain (a : Binary64) (op : BinaryOp)
    (b : Binary64) : Plainly (floatBinary a op b) := by
  unfold floatBinary
  split
  · exact plainly_error trivial
  · extract_lets result
    cases result with
    | none => exact plainly_error trivial
    | some value =>
        dsimp only
        split
        · exact plainly_ok _
        · exact plainly_error trivial

theorem orderBinary_plain (left : Value) (op : BinaryOp) (right : Value) :
    FailsPlainly (orderBinary left op right) := by
  unfold orderBinary
  split
  · exact failsPlainly_error trivial
  · split
    · exact failsPlainly_ok _
    · exact nofun

theorem binary_plain [Formatting] (left : Value) (op : BinaryOp)
    (right : Value) : FailsPlainly (binary left op right) := by
  unfold binary
  split
  · exact failsPlainly_ok _
  split
  · exact failsPlainly_ok _
  split
  · exact orderBinary_plain _ _ _
  split
  · split
    · exact failsPlainly_error trivial
    · exact failsPlainly_ok _
  split
  · split
    · exact failsPlainly_ok _
    · exact failsPlainly_error trivial
  · exact (integerBinary_plain _ _ _).fails
  · exact (durationBinary_plain _ _ _).fails
  · exact (floatBinary_plain _ _ _).fails
  · exact ((exactFloat_plain _).bind fun _ =>
      floatBinary_plain _ _ _).fails
  · exact ((exactFloat_plain _).bind fun _ =>
      floatBinary_plain _ _ _).fails
  · exact failsPlainly_error trivial

theorem unary_plain (operator : UnaryOp) (operand : Value) :
    Plainly (unary operator operand) := by
  unfold unary
  split
  · exact plainly_ok _
  · split
    · exact plainly_ok _
    · exact plainly_error trivial
  · exact plainly_ok _
  · exact plainly_error trivial

theorem asBoolean_plain (value : Value) :
    Plainly value.asBoolean := by
  unfold Value.asBoolean
  split
  · exact plainly_ok _
  · exact plainly_error trivial

theorem get_plain (object : Value) (selector : Selector) :
    Plainly (object.get selector) := by
  unfold Value.get
  split
  · split
    · exact plainly_ok _
    · exact plainly_error trivial
  · split
    · exact plainly_ok _
    · exact plainly_error trivial
  · split
    · exact plainly_error trivial
    · split
      · exact plainly_ok _
      · exact plainly_error trivial
  · exact plainly_error trivial

theorem index_plain (object subscript : Value) :
    Plainly (index object subscript) := by
  unfold index
  split
  · split
    · exact plainly_error trivial
    · split
      · exact plainly_ok _
      · exact plainly_error trivial
  · exact plainly_error trivial
  · exact get_plain _ _

theorem checkValueType_plain (types : TypeRegistry)
    (expected : Option ResolvedType) (value : Value) :
    FailsPlainly (types.checkValueType expected value) := by
  unfold TypeRegistry.checkValueType
  split
  · exact failsPlainly_ok _
  · split
    · exact failsPlainly_ok _
    · unfold Read.get
      split
      · next named =>
          exact failsPlainly_error trivial
      · next fault named =>
          split at named
          · cases named
            exact nofun
          · cases named

theorem configuredAddress_plain (transport : Transport)
    (fields : SortedMap Value) :
    Plainly (configuredAddress transport fields) := by
  unfold configuredAddress
  split
  · exact plainly_ok _
  · exact plainly_error trivial
  · exact plainly_error trivial

theorem toBytes_plain (values : List Value) :
    Plainly (toBytes values) := by
  induction values with
  | nil => exact plainly_ok _
  | cons value rest induction =>
      refine Plainly.bind ?_ fun _ => induction.bind fun _ =>
        plainly_ok _
      unfold toByte
      split
      · split
        · exact plainly_ok _
        · exact plainly_error trivial
      · exact plainly_error trivial

theorem pureBuiltin_plain (builtin : Builtin) (value : Value) :
    Plainly (pureBuiltin builtin value) := by
  unfold pureBuiltin
  split
  · exact (toBytes_plain _).bind fun _ => plainly_ok _
  · exact plainly_ok _
  · unfold decodeUtf8
    split
    · exact plainly_ok _
    · exact plainly_error trivial
  · unfold byteLength
    split
    · exact plainly_ok _
    · exact plainly_error trivial
  · exact plainly_error trivial

/-- The kinds of the errors of an update. -/
theorem set_plain (types : TypeRegistry) (selectors : List Selector)
    (root value : Value) : FailsPlainly (root.set types selectors value) := by
  intro kind failed
  induction selectors generalizing root with
  | nil =>
      unfold Value.set at failed
      cases failed
  | cons selector rest induction =>
      unfold Value.set at failed
      split at failed
      · split at failed
        · cases failed
          trivial
        split at failed
        · cases failed
        split at failed
        · cases failed
          trivial
        extract_lets expected at failed
        split at failed
        · next checked =>
            cases failed
            exact checkValueType_plain _ _ _ _ checked
        split at failed
        · cases failed
          trivial
        split at failed
        · next inner =>
            cases failed
            exact induction _ inner
        · cases failed
      · split at failed
        · cases failed
        split at failed
        · cases failed
          trivial
        split at failed
        · next inner =>
            cases failed
            exact induction _ inner
        · cases failed
      · split at failed
        · cases failed
          trivial
        split at failed
        · cases failed
          trivial
        split at failed
        · next inner =>
            cases failed
            exact induction _ inner
        · cases failed
      · cases failed
        trivial

end NetLang
