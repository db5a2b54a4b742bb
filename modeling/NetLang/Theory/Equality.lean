import NetLang.Theory.Arithmetic

/-!
# Equality of values

The operator `==` compares numbers by what they denote, and everything else,
also the numbers inside of a container, by structure.  Both comparisons are
equalities of what values denote, so the operator is an equivalence; it is a
congruence as long as no integer faces a float of the same number inside of a
container.
-/

namespace NetLang

namespace Value

/-- What a value denotes: a float its number, a record its type and fields. -/
inductive Form where
  | integer (number : Int64)
  | float (number : ℚ)
  | string (text : String)
  | bytes (content : List UInt8)
  | boolean (value : Bool)
  | null
  | duration (milliseconds : UInt64)
  | array (forms : List Form)
  | object (fields : List (String × Form))
  | record (identity typeId : Nat) (fields : List (String × Form))
  | handle

mutual

def form : Value → Form
  | .record identity typeId _ fields =>
      .record identity typeId (formFields fields)
  | .integer number => .integer number
  | .float number => .float number.toRat
  | .string text => .string text
  | .bytes content => .bytes content
  | .boolean value => .boolean value
  | .null => .null
  | .duration milliseconds => .duration milliseconds
  | .array values => .array (formList values)
  | .object fields => .object (formFields fields)
  | .connection _ | .function _ | .print | .builtin _ => .handle

def formList : List Value → List Form
  | [] => []
  | value :: rest => value.form :: formList rest

def formFields : List (String × Value) → List (String × Form)
  | [] => []
  | (key, value) :: rest => (key, value.form) :: formFields rest

end

mutual

/-- The values that programs compare by structure: no handles, finite floats,
ordered fields, and records of one execution. -/
def Plain (identity : Nat) : Value → Prop
  | .record token _ _ fields =>
      token = identity ∧ SortedMap.Ordered fields ∧ PlainFields identity fields
  | .float number => number.isFinite = true
  | .array values => PlainList identity values
  | .object fields => SortedMap.Ordered fields ∧ PlainFields identity fields
  | .connection _ | .function _ | .print | .builtin _ => False
  | .integer _ | .string _ | .bytes _ | .boolean _ | .null | .duration _ =>
      True

def PlainList (identity : Nat) : List Value → Prop
  | [] => True
  | value :: rest => value.Plain identity ∧ PlainList identity rest

def PlainFields (identity : Nat) : List (String × Value) → Prop
  | [] => True
  | (_, value) :: rest => value.Plain identity ∧ PlainFields identity rest

end

variable {identity : Nat}

mutual

theorem equal_iff_form : ∀ {a b : Value}, a.Plain identity →
    b.Plain identity → (a.equal b = true ↔ a.form = b.form)
  | .record _ _ _ fields, b, left, right => by
      cases b with
      | record _ _ _ fields' =>
          have inner := equalFields_iff_form left.2.2 right.2.2
          simp [equal, form, inner, and_assoc]
      | _ => simp [equal, form]
  | .array values, b, left, right => by
      cases b with
      | array values' =>
          have inner := equalList_iff_form left right
          simp [equal, form, inner]
      | _ => simp [equal, form]
  | .object fields, b, left, right => by
      cases b with
      | object fields' =>
          have inner := equalFields_iff_form left.2 right.2
          simp [equal, form, inner]
      | _ => simp [equal, form]
  | .float number, b, left, right => by
      cases b with
      | float number' =>
          simp [equal, form, Binary64.equal_of_isFinite left right]
      | _ => simp [equal, form]
  | .integer _, b, _, _ | .string _, b, _, _ | .bytes _, b, _, _
  | .boolean _, b, _, _ | .null, b, _, _ | .duration _, b, _, _ => by
      cases b <;> simp [equal, form]
  | .connection _, _, left, _ | .function _, _, left, _
  | .print, _, left, _ | .builtin _, _, left, _ => left.elim

theorem equalList_iff_form : ∀ {a b : List Value}, PlainList identity a →
    PlainList identity b → (equalList a b = true ↔ formList a = formList b)
  | [], [], _, _ => by simp [equalList, formList]
  | [], _ :: _, _, _ => by simp [equalList, formList]
  | _ :: _, [], _, _ => by simp [equalList, formList]
  | _ :: _, _ :: _, left, right => by
      have head := equal_iff_form left.1 right.1
      have tail := equalList_iff_form left.2 right.2
      simp [equalList, formList, head, tail]

theorem equalFields_iff_form : ∀ {a b : List (String × Value)},
    PlainFields identity a → PlainFields identity b →
      (equalFields a b = true ↔ formFields a = formFields b)
  | [], [], _, _ => by simp [equalFields, formFields]
  | [], _ :: _, _, _ => by simp [equalFields, formFields]
  | _ :: _, [], _, _ => by simp [equalFields, formFields]
  | _ :: _, _ :: _, left, right => by
      have head := equal_iff_form left.1 right.1
      have tail := equalFields_iff_form left.2 right.2
      simp [equalFields, formFields, head, tail, and_assoc]

end

/-- The top level compares numbers of both kinds by what they denote. -/
def outer : Value → Form
  | .integer number => .float number.toInt
  | value => value.form

/-- An integer opposite the float of the same number. -/
def Crosses (a b : Value) : Prop :=
  ∃ integer float, ((integer : Int64).toInt : ℚ) = (float : Binary64).toRat ∧
    (a = .integer integer ∧ b = .float float ∨
      a = .float float ∧ b = .integer integer)

/-- The same structure, or the same number of different kinds. -/
def Agrees (a b : Value) : Prop :=
  a.form = b.form ∨ Crosses a b

theorem outer_of_not_integer {a : Value} (other : ∀ n, a ≠ .integer n) :
    a.outer = a.form := by
  cases a with
  | integer n => exact absurd rfl (other n)
  | _ => rfl

theorem form_eq_float {a : Value} {number : ℚ}
    (same : a.form = .float number) :
    ∃ float, a = .float float ∧ float.toRat = number := by
  cases a with
  | float float => exact ⟨float, rfl, by simpa [form] using same⟩
  | _ => simp [form] at same

theorem form_eq_integer {a : Value} {number : Int64}
    (same : a.form = .integer number) : a = .integer number := by
  cases a with
  | integer => simpa [form] using same
  | _ => simp [form] at same

theorem agrees_symm {a b : Value} (agrees : Agrees a b) : Agrees b a := by
  obtain same | ⟨integer, float, same, here | there⟩ := agrees
  · exact .inl same.symm
  · exact .inr ⟨integer, float, same, .inr ⟨here.2, here.1⟩⟩
  · exact .inr ⟨integer, float, same, .inl ⟨there.2, there.1⟩⟩

theorem agrees_iff_outer (a b : Value) : Agrees a b ↔ a.outer = b.outer := by
  constructor
  · intro agrees
    obtain same | ⟨integer, float, same, here | there⟩ := agrees
    · by_cases left : ∃ n, a = .integer n
      · obtain ⟨n, rfl⟩ := left
        rw [form_eq_integer same.symm]
      · have right : ¬∃ n, b = .integer n := by
          intro found
          obtain ⟨n, rfl⟩ := found
          exact left ⟨n, form_eq_integer same⟩
        rw [outer_of_not_integer fun n equal => left ⟨n, equal⟩,
          outer_of_not_integer fun n equal => right ⟨n, equal⟩, same]
    · rw [here.1, here.2]
      exact congrArg Form.float same
    · rw [there.1, there.2]
      exact congrArg Form.float same.symm
  · intro same
    by_cases left : ∃ n, a = .integer n
    · obtain ⟨n, rfl⟩ := left
      by_cases right : ∃ m, b = .integer m
      · obtain ⟨m, rfl⟩ := right
        have number : n = m := by simpa [outer, Int64.toInt_inj] using same
        exact .inl (by rw [number])
      · rw [outer_of_not_integer fun m equal => right ⟨m, equal⟩] at same
        obtain ⟨float, rfl, number⟩ := form_eq_float same.symm
        exact .inr ⟨n, float, number.symm, .inl ⟨rfl, rfl⟩⟩
    · rw [outer_of_not_integer fun n equal => left ⟨n, equal⟩] at same
      by_cases right : ∃ m, b = .integer m
      · obtain ⟨m, rfl⟩ := right
        obtain ⟨float, rfl, number⟩ := form_eq_float same
        exact .inr ⟨m, float, number.symm, .inr ⟨rfl, rfl⟩⟩
      · rw [outer_of_not_integer fun m equal => right ⟨m, equal⟩] at same
        exact .inl same

theorem equalValues_integer_float (integer : Int64) {float : Binary64}
    (finite : float.isFinite = true) :
    equalValues (.integer integer) (.float float) = true ↔
      (integer.toInt : ℚ) = float.toRat := by
  have decided := Number.equalValues_eq (.integer integer) (.float float finite)
  exact decided ▸ decide_eq_true_iff

theorem equalValues_float_integer (integer : Int64) {float : Binary64}
    (finite : float.isFinite = true) :
    equalValues (.float float) (.integer integer) = true ↔
      float.toRat = integer.toInt := by
  have decided := Number.equalValues_eq (.float float finite) (.integer integer)
  exact decided ▸ decide_eq_true_iff

/-- The operator `==` holds of the values that agree. -/
theorem equalValues_iff_agrees {a b : Value} (left : a.Plain identity)
    (right : b.Plain identity) : equalValues a b = true ↔ Agrees a b := by
  by_cases forward : ∃ n f, a = .integer n ∧ b = .float f
  · obtain ⟨n, f, rfl, rfl⟩ := forward
    rw [agrees_iff_outer, equalValues_integer_float n right]
    simp [outer, form]
  by_cases backward : ∃ n f, a = .float f ∧ b = .integer n
  · obtain ⟨n, f, rfl, rfl⟩ := backward
    rw [agrees_iff_outer, equalValues_float_integer n left]
    simp [outer, form]
  have structural : equalValues a b = a.equal b := by
    unfold equalValues
    split
    · exact absurd ⟨_, _, rfl, rfl⟩ forward
    · exact absurd ⟨_, _, rfl, rfl⟩ backward
    · rfl
  have apart : ¬Crosses a b := by
    intro crosses
    obtain ⟨n, f, _, here | there⟩ := crosses
    · exact forward ⟨n, f, here⟩
    · exact backward ⟨n, f, there⟩
  rw [structural, equal_iff_form left right, Agrees, or_iff_left apart]

theorem not_form_of_crosses {a b : Value} (crosses : Crosses a b) :
    a.form ≠ b.form := by
  obtain ⟨n, f, _, ⟨rfl, rfl⟩ | ⟨rfl, rfl⟩⟩ := crosses <;> simp [form]

theorem formList_eq_iff {as bs : List Value} :
    formList as = formList bs ↔
      List.Forall₂ (fun a b => a.form = b.form) as bs := by
  induction as generalizing bs with
  | nil => cases bs <;> simp [formList]
  | cons a as induction =>
      cases bs with
      | nil => simp [formList]
      | cons b bs => simp [formList, induction]

theorem formFields_eq_iff {as bs : List (String × Value)} :
    formFields as = formFields bs ↔
      List.Forall₂ (fun entry entry' => entry.1 = entry'.1 ∧
        entry.2.form = entry'.2.form) as bs := by
  induction as generalizing bs with
  | nil => cases bs <;> simp [formFields]
  | cons a as induction =>
      cases bs with
      | nil => simp [formFields]
      | cons b bs => simp [formFields, induction]

theorem PlainList.member {values : List Value}
    (plain : PlainList identity values) {value : Value}
    (member : value ∈ values) : value.Plain identity := by
  induction values with
  | nil => cases member
  | cons head tail induction =>
      rcases List.mem_cons.mp member with rfl | later
      · exact plain.1
      · exact induction plain.2 later

theorem PlainFields.member {fields : List (String × Value)}
    (plain : PlainFields identity fields) {entry : String × Value}
    (member : entry ∈ fields) : entry.2.Plain identity := by
  induction fields with
  | nil => cases member
  | cons head tail induction =>
      rcases List.mem_cons.mp member with rfl | later
      · exact plain.1
      · exact induction plain.2 later

/-- An integer faces the float of the same number at one position. -/
def CrossesList (as bs : List Value) : Prop :=
  ∃ pair ∈ as.zip bs, Crosses pair.1 pair.2

/-- An integer faces the float of the same number under one key. -/
def CrossesFields (as bs : SortedMap Value) : Prop :=
  ∃ key a b, SortedMap.get? as key = some a ∧
    SortedMap.get? bs key = some b ∧ Crosses a b

theorem forall₂_form_iff {as bs : List Value}
    (agree : List.Forall₂ Agrees as bs) :
    List.Forall₂ (fun a b => a.form = b.form) as bs ↔ ¬CrossesList as bs := by
  induction agree with
  | nil => simp [CrossesList]
  | @cons a b as bs agrees rest induction =>
      have head : a.form = b.form ↔ ¬Crosses a b := by
        constructor
        · exact fun same crosses => not_form_of_crosses crosses same
        · exact fun apart => agrees.resolve_right apart
      simp only [List.forall₂_cons, head, induction, CrossesList,
        List.zip_cons_cons, List.mem_cons, exists_eq_or_imp, not_or]

theorem rel_form_iff {as bs : SortedMap Value}
    (agree : ∀ key, Option.Rel Agrees (SortedMap.get? as key)
      (SortedMap.get? bs key)) :
    (∀ key, Option.Rel (fun a b => a.form = b.form) (SortedMap.get? as key)
      (SortedMap.get? bs key)) ↔ ¬CrossesFields as bs := by
  constructor
  · intro same crossing
    obtain ⟨key, a, b, left, right, crosses⟩ := crossing
    have forms := same key
    rw [left, right] at forms
    cases forms with
    | some forms => exact not_form_of_crosses crosses forms
  · intro apart key
    have agrees := agree key
    cases left : SortedMap.get? as key with
    | none =>
        rw [left] at agrees
        cases right : SortedMap.get? bs key with
        | none => exact .none
        | some b =>
            rw [right] at agrees
            cases agrees
    | some a =>
        rw [left] at agrees
        cases right : SortedMap.get? bs key with
        | none =>
            rw [right] at agrees
            cases agrees
        | some b =>
            rw [right] at agrees
            cases agrees with
            | some agrees =>
                exact .some (agrees.resolve_right fun crosses =>
                  apart ⟨key, a, b, left, right, crosses⟩)

section Operator

variable [Formatting]

/-- The comparison `==` of two values is true. -/
def Equals (a b : Value) : Prop :=
  binary a .equal b = .ok (.boolean true)

theorem equals_iff_agrees {a b : Value} (left : a.Plain identity)
    (right : b.Plain identity) : Equals a b ↔ Agrees a b := by
  rw [← equalValues_iff_agrees left right]
  simp [Equals, binary]

theorem notEqual_negates (a b : Value) :
    ∃ result, binary a .equal b = .ok (.boolean result) ∧
      binary a .notEqual b = .ok (.boolean !result) :=
  ⟨equalValues a b, rfl, rfl⟩

theorem equals_refl {a : Value} (plain : a.Plain identity) : Equals a a :=
  (equals_iff_agrees plain plain).mpr (.inl rfl)

theorem equals_symm {a b : Value} (left : a.Plain identity)
    (right : b.Plain identity) (equal : Equals a b) : Equals b a :=
  (equals_iff_agrees right left).mpr
    (agrees_symm ((equals_iff_agrees left right).mp equal))

theorem equals_trans {a b c : Value} (first : a.Plain identity)
    (second : b.Plain identity) (third : c.Plain identity)
    (left : Equals a b) (right : Equals b c) : Equals a c := by
  rw [equals_iff_agrees first second, agrees_iff_outer] at left
  rw [equals_iff_agrees second third, agrees_iff_outer] at right
  rw [equals_iff_agrees first third, agrees_iff_outer, left, right]

/-- Inside of a container the comparison is that of the forms. -/
theorem equals_of_not_integer {a b : Value} (left : a.Plain identity)
    (right : b.Plain identity) (other : ∀ n, a ≠ .integer n)
    (other' : ∀ n, b ≠ .integer n) : Equals a b ↔ a.form = b.form := by
  rw [equals_iff_agrees left right, agrees_iff_outer,
    outer_of_not_integer other, outer_of_not_integer other']

theorem forall₂_equals_iff {as bs : List Value}
    (left : PlainList identity as) (right : PlainList identity bs) :
    List.Forall₂ Equals as bs ↔ List.Forall₂ Agrees as bs := by
  induction as generalizing bs with
  | nil => cases bs <;> simp
  | cons a as induction =>
      cases bs with
      | nil => simp
      | cons b bs =>
          have head := equals_iff_agrees left.1 right.1
          have tail := induction left.2 right.2
          rw [List.forall₂_cons, List.forall₂_cons, head, tail]

theorem rel_equals_iff {as bs : SortedMap Value}
    (left : PlainFields identity as) (right : PlainFields identity bs)
    (key : String) :
    Option.Rel Equals (SortedMap.get? as key) (SortedMap.get? bs key) ↔
      Option.Rel Agrees (SortedMap.get? as key)
        (SortedMap.get? bs key) := by
  cases found : SortedMap.get? as key with
  | none => cases SortedMap.get? bs key <;> simp
  | some a =>
      cases found' : SortedMap.get? bs key with
      | none => simp
      | some b =>
          have plain := left.member (SortedMap.mem_of_get? found)
          have plain' := right.member (SortedMap.mem_of_get? found')
          simp [equals_iff_agrees plain plain']

theorem equals_array_iff {as bs : List Value}
    (left : (Value.array as).Plain identity)
    (right : (Value.array bs).Plain identity) :
    Equals (.array as) (.array bs) ↔
      List.Forall₂ (fun a b => a.form = b.form) as bs := by
  rw [equals_of_not_integer left right (by simp) (by simp)]
  simp [form, formList_eq_iff]

theorem equals_object_iff {as bs : SortedMap Value}
    (left : (Value.object as).Plain identity)
    (right : (Value.object bs).Plain identity) :
    Equals (.object as) (.object bs) ↔ ∀ key,
      Option.Rel (fun a b => a.form = b.form) (SortedMap.get? as key)
        (SortedMap.get? bs key) := by
  rw [equals_of_not_integer left right (by simp) (by simp),
    ← SortedMap.forall₂_iff_get? left.1 right.1]
  simp [form, formFields_eq_iff]

theorem equals_record_iff {typeId typeId' : Nat} {name name' : String}
    {as bs : SortedMap Value}
    (left : (Value.record identity typeId name as).Plain identity)
    (right : (Value.record identity typeId' name' bs).Plain identity) :
    Equals (.record identity typeId name as)
        (.record identity typeId' name' bs) ↔
      typeId = typeId' ∧ ∀ key,
        Option.Rel (fun a b => a.form = b.form) (SortedMap.get? as key)
          (SortedMap.get? bs key) := by
  rw [equals_of_not_integer left right (by simp) (by simp),
    ← SortedMap.forall₂_iff_get? left.2.1 right.2.1]
  simp [form, formFields_eq_iff]

theorem array_congruence {as bs : List Value}
    (left : (Value.array as).Plain identity)
    (right : (Value.array bs).Plain identity) :
    (Equals (.array as) (.array bs) ↔ List.Forall₂ Equals as bs) ↔
      ¬(List.Forall₂ Agrees as bs ∧ CrossesList as bs) := by
  have weaker : List.Forall₂ (fun a b => a.form = b.form) as bs →
      List.Forall₂ Agrees as bs := fun same => same.imp fun _ _ => .inl
  have exactly := @forall₂_form_iff as bs
  rw [equals_array_iff left right, forall₂_equals_iff left right]
  tauto

theorem fields_congruence {as bs : SortedMap Value}
    (left : PlainFields identity as) (right : PlainFields identity bs) :
    ((∀ key, Option.Rel (fun a b => a.form = b.form)
        (SortedMap.get? as key) (SortedMap.get? bs key)) ↔
      ∀ key, Option.Rel Equals (SortedMap.get? as key)
        (SortedMap.get? bs key)) ↔
      ¬((∀ key, Option.Rel Agrees (SortedMap.get? as key)
        (SortedMap.get? bs key)) ∧ CrossesFields as bs) := by
  have weaker : (∀ key, Option.Rel (fun a b => a.form = b.form)
      (SortedMap.get? as key) (SortedMap.get? bs key)) →
      ∀ key, Option.Rel Agrees (SortedMap.get? as key)
        (SortedMap.get? bs key) :=
    fun same key => optionRel_mono (same key) fun _ _ => .inl
  have exactly := @rel_form_iff as bs
  simp only [rel_equals_iff left right]
  tauto

theorem object_congruence {as bs : SortedMap Value}
    (left : (Value.object as).Plain identity)
    (right : (Value.object bs).Plain identity) :
    (Equals (.object as) (.object bs) ↔
      ∀ key, Option.Rel Equals (SortedMap.get? as key)
        (SortedMap.get? bs key)) ↔
      ¬((∀ key, Option.Rel Agrees (SortedMap.get? as key)
        (SortedMap.get? bs key)) ∧ CrossesFields as bs) := by
  rw [equals_object_iff left right]
  exact fields_congruence left.2 right.2

theorem record_congruence {typeId typeId' : Nat} {name name' : String}
    {as bs : SortedMap Value}
    (left : (Value.record identity typeId name as).Plain identity)
    (right : (Value.record identity typeId' name' bs).Plain identity) :
    (Equals (.record identity typeId name as)
        (.record identity typeId' name' bs) ↔
      typeId = typeId' ∧ ∀ key, Option.Rel Equals (SortedMap.get? as key)
        (SortedMap.get? bs key)) ↔
      ¬(typeId = typeId' ∧ (∀ key, Option.Rel Agrees
        (SortedMap.get? as key) (SortedMap.get? bs key)) ∧
        CrossesFields as bs) := by
  have inner := fields_congruence left.2.2 right.2.2
  rw [equals_record_iff left right]
  by_cases same : typeId = typeId'
  · simpa [same] using inner
  · simp [same]

/-- Language equality is an equivalence, and it is that of the parts of a
container unless the parts agree although an integer faces a float. -/
theorem equality_congruent (identity : Nat) :
    (∀ a : Value, a.Plain identity → Equals a a) ∧
    (∀ a b : Value, a.Plain identity → b.Plain identity →
      Equals a b → Equals b a) ∧
    (∀ a b c : Value, a.Plain identity → b.Plain identity →
      c.Plain identity → Equals a b → Equals b c → Equals a c) ∧
    (∀ a b : Value, ∃ result, binary a .equal b = .ok (.boolean result) ∧
      binary a .notEqual b = .ok (.boolean !result)) ∧
    (∀ as bs, (Value.array as).Plain identity →
      (Value.array bs).Plain identity →
      ((Equals (.array as) (.array bs) ↔ List.Forall₂ Equals as bs) ↔
        ¬(List.Forall₂ Agrees as bs ∧ CrossesList as bs))) ∧
    (∀ as bs, (Value.object as).Plain identity →
      (Value.object bs).Plain identity →
      ((Equals (.object as) (.object bs) ↔
        ∀ key, Option.Rel Equals (SortedMap.get? as key)
          (SortedMap.get? bs key)) ↔
        ¬((∀ key, Option.Rel Agrees (SortedMap.get? as key)
          (SortedMap.get? bs key)) ∧ CrossesFields as bs))) ∧
    (∀ typeId typeId' name name' as bs,
      (Value.record identity typeId name as).Plain identity →
      (Value.record identity typeId' name' bs).Plain identity →
      ((Equals (.record identity typeId name as)
          (.record identity typeId' name' bs) ↔
        typeId = typeId' ∧ ∀ key, Option.Rel Equals
          (SortedMap.get? as key) (SortedMap.get? bs key)) ↔
        ¬(typeId = typeId' ∧ (∀ key, Option.Rel Agrees
          (SortedMap.get? as key) (SortedMap.get? bs key)) ∧
          CrossesFields as bs))) := by
  refine ⟨fun _ => equals_refl, fun _ _ => equals_symm,
    fun _ _ _ => equals_trans, notEqual_negates,
    fun _ _ => array_congruence, fun _ _ => object_congruence,
    fun _ _ _ _ _ _ => record_congruence⟩

end Operator

/-- The float that denotes one. -/
def oneFloat : Value :=
  .float ⟨0x3FF0000000000000⟩

/-- The integer and the float are equal, the arrays that hold them are not. -/
theorem arrays_not_congruent :
    ¬∀ (_ : Formatting) (identity : Nat) (as bs : List Value),
      (Value.array as).Plain identity → (Value.array bs).Plain identity →
      (Equals (.array as) (.array bs) ↔ List.Forall₂ Equals as bs) := by
  intro congruent
  have exactly := congruent plainFormatting 0 [.integer 1] [oneFloat]
    ⟨trivial, trivial⟩ ⟨rfl, trivial⟩
  let _formatting : Formatting := plainFormatting
  have elements : List.Forall₂ Equals [.integer 1] [oneFloat] := by
    refine .cons ?_ .nil
    have equal : equalValues (.integer 1) oneFloat = true := by
      decide +kernel
    exact congrArg (fun result => Except.ok (Value.boolean result)) equal
  have whole := exactly.mpr elements
  cases whole

end Value

end NetLang
