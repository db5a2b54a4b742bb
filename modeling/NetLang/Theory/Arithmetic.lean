import NetLang.Library.Truncation
import NetLang.Theory.Foreign

/-!
# Exact numbers

Integers and finite floats denote rationals.  The comparison operators decide
the order of these rationals, also between an integer and a float, where a
conversion would round.  The arithmetic of integers and durations computes the
exact result or refuses it.
-/

namespace NetLang

namespace Binary64

theorem isNaN_of_isFinite {x : Binary64} (finite : x.isFinite = true) :
    x.isNaN = false := by
  simp only [isFinite, bne_iff_ne] at finite
  simp [isNaN, finite]

theorem isInfinite_of_isFinite {x : Binary64} (finite : x.isFinite = true) :
    x.isInfinite = false := by
  simp only [isFinite, bne_iff_ne] at finite
  simp [isInfinite, finite]

theorem partialCompare_of_isFinite {x y : Binary64}
    (left : x.isFinite = true) (right : y.isFinite = true) :
    x.partialCompare y = some (compare x.toRat y.toRat) := by
  simp [partialCompare, isNaN_of_isFinite left, isNaN_of_isFinite right,
    isInfinite_of_isFinite left, isInfinite_of_isFinite right]

theorem equal_of_isFinite {x y : Binary64} (left : x.isFinite = true)
    (right : y.isFinite = true) :
    x.equal y = decide (x.toRat = y.toRat) := by
  rw [Bool.eq_iff_iff, decide_eq_true_iff, ← compare_eq_iff_eq]
  simp [equal, partialCompare_of_isFinite left right]

theorem truncate_eq_integerPart (value : ℚ) :
    truncate value = integerPart value :=
  (integerPart_eq_tdiv value).symm

theorem isFinite_upperGuard :
    (ofInt 9223372036854775808).isFinite = true := by
  decide +kernel

theorem toRat_upperGuard :
    (ofInt 9223372036854775808).toRat = 9223372036854775808 := by
  decide +kernel

theorem isFinite_lowerGuard :
    (ofInt (-9223372036854775808)).isFinite = true := by
  decide +kernel

theorem toRat_lowerGuard :
    (ofInt (-9223372036854775808)).toRat = -9223372036854775808 := by
  decide +kernel

end Binary64

section Comparisons

open Binary64

theorem isGE_compare (a b : ℚ) : (compare a b).isGE = decide (b ≤ a) := by
  obtain below | same | above := lt_trichotomy a b
  · simp [compare_lt_iff_lt.mpr below, below.not_ge]
  · simp [compare_eq_iff_eq.mpr same, same.ge]
  · simp [compare_gt_iff_gt.mpr above, above.le]

theorem isLT_compare (a b : ℚ) : (compare a b).isLT = decide (a < b) := by
  obtain below | same | above := lt_trichotomy a b
  · simp [compare_lt_iff_lt.mpr below, below]
  · simp [compare_eq_iff_eq.mpr same, same.not_lt]
  · simp [compare_gt_iff_gt.mpr above, above.not_gt]

theorem isGT_compare (a b : ℚ) : (compare a b).isGT = decide (b < a) := by
  rw [Std.OrientedOrd.eq_swap, Ordering.isGT_swap, isLT_compare]

theorem compareIntFloat_exact (integer : Int64) {float : Binary64}
    (finite : float.isFinite = true) :
    compareIntFloat integer float =
      some (compare (integer.toInt : ℚ) float.toRat) := by
  have above : (integer.toInt : ℚ) < 9223372036854775808 := by
    exact_mod_cast integer.toInt_lt
  have below : (-9223372036854775808 : ℚ) ≤ integer.toInt := by
    exact_mod_cast integer.le_toInt
  rw [compareIntFloat, isNaN_of_isFinite finite,
    partialCompare_of_isFinite finite isFinite_upperGuard, toRat_upperGuard,
    partialCompare_of_isFinite finite isFinite_lowerGuard, toRat_lowerGuard,
    Option.any_some, Option.any_some, isGE_compare, isLT_compare]
  by_cases large : 9223372036854775808 ≤ float.toRat
  · have smaller : (integer.toInt : ℚ) < float.toRat := above.trans_le large
    simp [large, compare_lt_iff_lt.mpr smaller]
  · by_cases small : float.toRat < -9223372036854775808
    · have larger : float.toRat < integer.toInt := small.trans_le below
      simp [large, small, compare_gt_iff_gt.mpr larger]
    · rw [compare_integerPart]
      simp only [large, small, fract, truncate_eq_integerPart, decide_false,
        Bool.false_eq_true, if_false]
      cases compare integer.toInt (integerPart float.toRat) <;> rfl

/-- The numbers of the language that denote a rational. -/
inductive Number where
  | integer (value : Int64)
  | float (value : Binary64) (finite : value.isFinite = true)

namespace Number

def value : Number → Value
  | integer value => .integer value
  | float value _ => .float value

def toRat : Number → ℚ
  | integer value => value.toInt
  | float value _ => value.toRat

theorem compareValues_eq (x y : Number) :
    compareValues x.value y.value = some (compare x.toRat y.toRat) := by
  cases x with
  | integer x =>
      cases y with
      | integer y =>
          have same : compare (x.toInt : ℚ) y.toInt = compare x.toInt y.toInt := by
            simp [compare, compareOfLessAndEq]
          simp [compareValues, value, toRat, same]
      | float y finite =>
          simp [compareValues, value, toRat, compareIntFloat_exact x finite]
  | float x finite =>
      cases y with
      | integer y =>
          simp [compareValues, value, toRat, compareIntFloat_exact y finite,
            ← Std.OrientedOrd.eq_swap]
      | float y finite' =>
          simp [compareValues, value, toRat,
            partialCompare_of_isFinite finite finite']

theorem equalValues_eq (x y : Number) :
    equalValues x.value y.value = decide (x.toRat = y.toRat) := by
  cases x with
  | integer x =>
      cases y with
      | integer y =>
          simp [equalValues, value, toRat, Value.equal, Int64.toInt_inj,
            Bool.beq_eq_decide_eq]
      | float y finite =>
          rw [Bool.eq_iff_iff, decide_eq_true_iff, ← compare_eq_iff_eq]
          simp [equalValues, value, toRat, compareIntFloat_exact x finite]
  | float x finite =>
      cases y with
      | integer y =>
          rw [Bool.eq_iff_iff, decide_eq_true_iff, eq_comm (a := toRat _),
            ← compare_eq_iff_eq]
          simp [equalValues, value, toRat, compareIntFloat_exact y finite]
      | float y finite' =>
          exact equal_of_isFinite finite finite'

variable [Formatting]

/-- A comparison of two numbers is true. -/
def Holds (op : BinaryOp) (x y : Number) : Prop :=
  binary x.value op y.value = .ok (.boolean true)

/-- An operator decides a relation of the numbers that its operands denote. -/
def Decides (op : BinaryOp) (relation : ℚ → ℚ → Prop)
    [DecidableRel relation] : Prop :=
  ∀ x y : Number, binary x.value op y.value =
    .ok (.boolean (decide (relation x.toRat y.toRat)))

theorem Decides.holds {op : BinaryOp} {relation : ℚ → ℚ → Prop}
    [DecidableRel relation] (decides : Decides op relation) (x y : Number) :
    Holds op x y ↔ relation x.toRat y.toRat := by
  simp [Holds, decides x y]

theorem decides_less : Decides .less (· < ·) := by
  intro x y
  simp [binary, orderBinary, BinaryOp.isOrder, compareValues_eq,
    BinaryOp.holds, isLT_compare]

theorem decides_lessEqual : Decides .lessEqual (· ≤ ·) := by
  intro x y
  have negated : (!decide (y.toRat < x.toRat)) =
      decide (x.toRat ≤ y.toRat) := by
    simp [← decide_not]
  simp only [binary, orderBinary, BinaryOp.isOrder, compareValues_eq,
    BinaryOp.holds, isGT_compare, negated]
  rfl

theorem decides_greater : Decides .greater (· > ·) := by
  intro x y
  simp [binary, orderBinary, BinaryOp.isOrder, compareValues_eq,
    BinaryOp.holds, isGT_compare]

theorem decides_greaterEqual : Decides .greaterEqual (· ≥ ·) := by
  intro x y
  have negated : (!decide (x.toRat < y.toRat)) =
      decide (x.toRat ≥ y.toRat) := by
    simp [← decide_not]
  simp only [binary, orderBinary, BinaryOp.isOrder, compareValues_eq,
    BinaryOp.holds, isLT_compare, negated]
  rfl

theorem decides_equal : Decides .equal (· = ·) := by
  intro x y
  simp [binary, equalValues_eq]

theorem decides_notEqual : Decides .notEqual (· ≠ ·) := by
  intro x y
  simp [binary, equalValues_eq]

/-- Integers and finite floats are compared as the exact numbers that they
denote, so that they are ordered together. -/
theorem comparisons_exact :
    (Decides .less (· < ·) ∧ Decides .lessEqual (· ≤ ·) ∧
      Decides .greater (· > ·) ∧ Decides .greaterEqual (· ≥ ·) ∧
      Decides .equal (· = ·) ∧ Decides .notEqual (· ≠ ·)) ∧
    (∀ x y : Number,
      (Holds .less x y ∧ ¬Holds .equal x y ∧ ¬Holds .greater x y) ∨
      (¬Holds .less x y ∧ Holds .equal x y ∧ ¬Holds .greater x y) ∨
      (¬Holds .less x y ∧ ¬Holds .equal x y ∧ Holds .greater x y)) ∧
    (∀ x y z : Number, Holds .less x y → Holds .less y z → Holds .less x z) ∧
    (∀ x y z : Number,
      Holds .equal x y → Holds .equal y z → Holds .equal x z) := by
  refine ⟨⟨decides_less, decides_lessEqual, decides_greater,
    decides_greaterEqual, decides_equal, decides_notEqual⟩, ?_, ?_, ?_⟩
  · intro x y
    rw [decides_less.holds, decides_equal.holds, decides_greater.holds]
    obtain below | same | above := lt_trichotomy x.toRat y.toRat
    · exact .inl ⟨below, below.ne, below.not_gt⟩
    · exact .inr (.inl ⟨same.not_lt, same, same.not_gt⟩)
    · exact .inr (.inr ⟨above.not_gt, above.ne', above⟩)
  · intro x y z
    rw [decides_less.holds, decides_less.holds, decides_less.holds]
    exact lt_trans
  · intro x y z
    rw [decides_equal.holds, decides_equal.holds, decides_equal.holds]
    exact Eq.trans

end Number

end Comparisons

section Integers

/-- The outcome of an operator is the exact result whenever that exists and
fits, and an error otherwise. -/
structure Exactly {width ε : Type} (make : width → Value)
    (denotes : width → ℤ) (exact : Option ℤ) (outcome : Except ε Value) :
    Prop where
  sound : ∀ result, outcome = .ok result →
    ∃ value, result = make value ∧ exact = some (denotes value)
  complete : ∀ value, exact = some (denotes value) → outcome = .ok (make value)

def BinaryOp.arithmetic : List BinaryOp :=
  [.add, .subtract, .multiply, .divide, .remainder]

/-- The mathematical result of an arithmetic operator. -/
def BinaryOp.exact (op : BinaryOp) (a b : ℤ) : Option ℤ :=
  match op with
  | .add => some (a + b)
  | .subtract => some (a - b)
  | .multiply => some (a * b)
  | .divide => if b = 0 then none else some (integerPart (a / b))
  | .remainder =>
      if b = 0 then none else some (a - b * integerPart (a / b))
  | _ => none

/-- The remainder that the arithmetic refuses although it is zero. -/
def Overflows (op : BinaryOp) (a b : Int64) : Prop :=
  op = .remainder ∧ a.toInt = -2 ^ 63 ∧ b.toInt = -1

theorem checkedInteger_toInt (value : Int64) :
    checkedInteger value.toInt = some value := by
  have below := value.toInt_lt
  have above := value.le_toInt
  rw [checkedInteger, if_pos ⟨by omega, by omega⟩, Int64.ofInt_toInt]

theorem toInt_of_checkedInteger {value : ℤ} {result : Int64}
    (checked : checkedInteger value = some result) : result.toInt = value := by
  unfold checkedInteger at checked
  split at checked
  · next fits =>
      cases checked
      exact Int64.toInt_ofInt_of_le (by omega) (by omega)
  · cases checked

theorem checkedDuration_toNat (value : UInt64) :
    checkedDuration value.toNat = some value := by
  have below := value.toNat_lt
  rw [checkedDuration, if_pos ⟨by omega, by omega⟩]
  simp

theorem toNat_of_checkedDuration {value : ℤ} {result : UInt64}
    (checked : checkedDuration value = some result) :
    (result.toNat : ℤ) = value := by
  unfold checkedDuration at checked
  split at checked
  · next fits =>
      cases checked
      have small : value.toNat < 2 ^ 64 := by omega
      rw [UInt64.toNat_ofNat_of_lt' small]
      omega
  · cases checked

theorem Exactly.ofKind {width : Type} {make : width → Value}
    {denotes : width → ℤ} {exact : Option ℤ}
    {outcome : Except ErrorKind Value}
    (exactly : Exactly make denotes exact outcome) :
    Exactly make denotes exact (Fault.ofKind outcome) := by
  constructor
  · intro result same
    cases outcome with
    | ok value =>
        cases same
        exact exactly.sound _ rfl
    | error kind => cases same
  · intro value same
    rw [exactly.complete value same]
    rfl

theorem Exactly.ofCheck {width : Type} {make : width → Value}
    {denotes : width → ℤ} {exact : Option ℤ}
    {outcome : Except ErrorKind Value} (check : ℤ → Option width)
    (denoted : ∀ {number value}, check number = some value →
      denotes value = number)
    (checked : ∀ value, check (denotes value) = some value)
    (failed : exact.bind check = none → ∃ kind, outcome = .error kind)
    (returned : ∀ value, exact.bind check = some value →
      outcome = .ok (make value)) :
    Exactly make denotes exact outcome := by
  constructor
  · intro result same
    cases found : exact.bind check with
    | none =>
        obtain ⟨kind, error⟩ := failed found
        rw [error] at same
        cases same
    | some value =>
        rw [returned value found] at same
        cases same
        obtain ⟨number, exactly, fits⟩ := Option.bind_eq_some_iff.mp found
        exact ⟨value, rfl, by rw [exactly, denoted fits]⟩
  · intro value same
    apply returned
    simp [same, checked]

theorem integer_exactly {exact : Option ℤ} {outcome : Except ErrorKind Value}
    (failed : exact.bind checkedInteger = none → ∃ kind, outcome = .error kind)
    (returned : ∀ value, exact.bind checkedInteger = some value →
      outcome = .ok (.integer value)) :
    Exactly .integer Int64.toInt exact outcome :=
  .ofCheck checkedInteger toInt_of_checkedInteger checkedInteger_toInt failed
    returned

theorem binary_integer [Formatting] {op : BinaryOp} (arithmetic : op ∈ BinaryOp.arithmetic)
    (a b : Int64) :
    binary (.integer a) op (.integer b) =
      Fault.ofKind (integerBinary a op b) := by
  simp only [BinaryOp.arithmetic, List.mem_cons, List.not_mem_nil,
    or_false] at arithmetic
  obtain rfl | rfl | rfl | rfl | rfl := arithmetic <;> rfl

/-- Without a zero divisor, an operator checks its exact result. -/
theorem integerBinary_checked {op : BinaryOp}
    (arithmetic : op ∈ BinaryOp.arithmetic) {a b : Int64}
    (fits : ¬Overflows op a b) {exact : ℤ}
    (same : op.exact a.toInt b.toInt = some exact) :
    integerBinary a op b = (checkedInteger exact).elim
      (.error .integerOperation) (fun value => .ok (.integer value)) := by
  simp only [BinaryOp.arithmetic, List.mem_cons, List.not_mem_nil,
    or_false] at arithmetic
  obtain rfl | rfl | rfl | rfl | rfl := arithmetic
  case inr.inr.inr.inl =>
    obtain ⟨nonzero, rfl⟩ : b.toInt ≠ 0 ∧ _ := by
      simpa [BinaryOp.exact] using same
    simp only [integerBinary, nonzero, tdiv_eq_integerPart, and_false,
      if_false]
    cases checkedInteger _ <;> rfl
  case inr.inr.inr.inr =>
    obtain ⟨nonzero, rfl⟩ : b.toInt ≠ 0 ∧ _ := by
      simpa [BinaryOp.exact] using same
    have regular : ¬(a.toInt = -2 ^ 63 ∧ b.toInt = -1) := fun both =>
      fits ⟨rfl, both⟩
    simp only [integerBinary, nonzero, if_neg regular, tmod_eq_integerPart,
      and_false, if_false]
    cases checkedInteger _ <;> rfl
  all_goals
    cases same
    simp only [integerBinary, reduceCtorEq, or_self, false_and, if_false]
    cases checkedInteger _ <;> rfl

/-- An operator without an exact result divides by zero. -/
theorem integerBinary_undefined {op : BinaryOp}
    (arithmetic : op ∈ BinaryOp.arithmetic) {a b : Int64}
    (undefined : op.exact a.toInt b.toInt = none) :
    integerBinary a op b = .error .divisionByZero := by
  simp only [BinaryOp.arithmetic, List.mem_cons, List.not_mem_nil,
    or_false] at arithmetic
  obtain rfl | rfl | rfl | rfl | rfl := arithmetic
  case inr.inr.inr.inl | inr.inr.inr.inr =>
    have zero : b.toInt = 0 := by
      simpa [BinaryOp.exact] using undefined
    simp [integerBinary, zero]
  all_goals cases undefined

theorem integerBinary_overflows {op : BinaryOp} {a b : Int64}
    (overflows : Overflows op a b) :
    integerBinary a op b = .error .integerOperation := by
  obtain ⟨rfl, least, negative⟩ := overflows
  simp [integerBinary, least, negative]

/-- The refused remainder is the zero that no other pair refuses. -/
theorem exact_overflows {op : BinaryOp} {a b : Int64}
    (overflows : Overflows op a b) :
    op.exact a.toInt b.toInt = some 0 := by
  obtain ⟨rfl, least, negative⟩ := overflows
  simp only [BinaryOp.exact, ← tmod_eq_integerPart, least, negative]
  rfl

theorem integerBinary_exactly [Formatting] {op : BinaryOp}
    (arithmetic : op ∈ BinaryOp.arithmetic) {a b : Int64}
    (fits : ¬Overflows op a b) :
    Exactly .integer Int64.toInt (op.exact a.toInt b.toInt)
      (binary (.integer a) op (.integer b)) := by
  rw [binary_integer arithmetic]
  apply Exactly.ofKind
  cases defined : op.exact a.toInt b.toInt with
  | none =>
      have undefined := integerBinary_undefined arithmetic defined
      exact integer_exactly (fun _ => ⟨_, undefined⟩) (fun _ found => by
        cases found)
  | some exact =>
      rw [integerBinary_checked arithmetic fits defined]
      apply integer_exactly
      · intro failed
        have refused : checkedInteger exact = none := failed
        exact ⟨_, by rw [refused]; rfl⟩
      · intro value returned
        have accepted : checkedInteger exact = some value := returned
        rw [accepted]
        rfl

theorem negate_exactly (a : Int64) :
    Exactly .integer Int64.toInt (some (-a.toInt))
      (unary .negate (.integer a)) := by
  apply integer_exactly
  · intro failed
    have refused : checkedInteger (-a.toInt) = none := failed
    exact ⟨_, by simp [unary, refused]; rfl⟩
  · intro value returned
    have accepted : checkedInteger (-a.toInt) = some value := returned
    simp [unary, accepted]

theorem durationBinary_add {op : BinaryOp} (same : op = .add)
    (a b : UInt64) :
    durationBinary a op b = (checkedDuration (a.toNat + b.toNat)).elim
      (.error .durationOperation) (fun value => .ok (.duration value)) := by
  unfold durationBinary
  generalize checkedDuration (a.toNat + b.toNat) = sum
  subst same
  cases sum <;> rfl

theorem durationBinary_subtract {op : BinaryOp} (same : op = .subtract)
    (a b : UInt64) :
    durationBinary a op b = (checkedDuration (a.toNat - b.toNat)).elim
      (.error .durationOperation) (fun value => .ok (.duration value)) := by
  unfold durationBinary
  generalize checkedDuration (a.toNat - b.toNat) = difference
  subst same
  cases difference <;> rfl

theorem durationBinary_checked {op : BinaryOp}
    (additive : op = .add ∨ op = .subtract) (a b : UInt64) :
    ∃ exact, op.exact a.toNat b.toNat = some exact ∧
      durationBinary a op b = (checkedDuration exact).elim
        (.error .durationOperation) (fun value => .ok (.duration value)) := by
  obtain same | same := additive
  · exact ⟨_, by rw [same]; rfl, durationBinary_add same a b⟩
  · exact ⟨_, by rw [same]; rfl, durationBinary_subtract same a b⟩

theorem binary_duration [Formatting] {op : BinaryOp}
    (additive : op = .add ∨ op = .subtract) (a b : UInt64) :
    binary (.duration a) op (.duration b) =
      Fault.ofKind (durationBinary a op b) := by
  obtain rfl | rfl := additive <;>
    simp [binary, BinaryOp.isOrder, Value.isString]

theorem durationBinary_exactly [Formatting] {op : BinaryOp}
    (additive : op = .add ∨ op = .subtract) (a b : UInt64) :
    Exactly .duration (fun value => value.toNat)
      (op.exact a.toNat b.toNat)
      (binary (.duration a) op (.duration b)) := by
  obtain ⟨exact, defined, same⟩ := durationBinary_checked additive a b
  rw [binary_duration additive, defined, same]
  apply Exactly.ofKind
  apply Exactly.ofCheck checkedDuration toNat_of_checkedDuration
    checkedDuration_toNat
  · intro failed
    have refused : checkedDuration exact = none := failed
    exact ⟨_, by rw [refused]; rfl⟩
  · intro value returned
    have accepted : checkedDuration exact = some value := returned
    rw [accepted]
    rfl

/-- Integer arithmetic is exact or refused, and it refuses one result that
would fit; negation and duration arithmetic refuse none. -/
theorem arithmetic_exact [Formatting] :
    (∀ op ∈ BinaryOp.arithmetic, ∀ a b : Int64,
      (Exactly .integer Int64.toInt (op.exact a.toInt b.toInt)
        (binary (.integer a) op (.integer b)) ↔ ¬Overflows op a b) ∧
      (Overflows op a b → binary (.integer a) op (.integer b) =
        .error (.kind .integerOperation))) ∧
    (∀ a : Int64, Exactly .integer Int64.toInt (some (-a.toInt))
      (unary .negate (.integer a))) ∧
    (∀ a b : UInt64, ∀ op : BinaryOp, op = .add ∨ op = .subtract →
      Exactly .duration (fun value => value.toNat)
        (op.exact a.toNat b.toNat)
        (binary (.duration a) op (.duration b))) := by
  refine ⟨?_, negate_exactly, fun a b op additive =>
    durationBinary_exactly additive a b⟩
  intro op arithmetic a b
  have refuses (overflows : Overflows op a b) :
      binary (.integer a) op (.integer b) =
        .error (.kind .integerOperation) := by
    rw [binary_integer arithmetic, integerBinary_overflows overflows]
    rfl
  refine ⟨⟨?_, integerBinary_exactly arithmetic⟩, refuses⟩
  intro exactly overflows
  have returned := exactly.complete 0 (exact_overflows overflows)
  rw [refuses overflows] at returned
  cases returned

/-- The remainder of the least integer by minus one is zero, and refused. -/
theorem remainder_refused :
    ¬∀ (_ : Formatting) (op : BinaryOp), op ∈ BinaryOp.arithmetic →
      ∀ a b : Int64, Exactly .integer Int64.toInt
        (op.exact a.toInt b.toInt) (binary (.integer a) op (.integer b)) := by
  intro exactly
  let _formatting : Formatting := plainFormatting
  have remainder := exactly plainFormatting .remainder (by decide) Int64.minValue (-1)
  have returned := remainder.complete 0 (exact_overflows ⟨rfl, rfl, rfl⟩)
  cases returned

end Integers

end NetLang
