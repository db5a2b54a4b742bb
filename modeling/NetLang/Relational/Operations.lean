import NetLang.Relational.Values
import NetLang.Interpreter.Expression
import NetLang.Syntax.Rewrite

/-!
# Related operations

Every pure operation of the interpreter takes related values to related
results, and fails on both sides with the same error.
-/

namespace NetLang

/-- Both succeed with related values, or both fail alike. -/
def Agree {α β ε : Type} (post : α → β → Prop) :
    Except ε α → Except ε β → Prop
  | .ok a, .ok b => post a b
  | .error reason, .error reason' => reason = reason'
  | _, _ => False

variable {matching larger : Matching}

theorem Agree.mono {α β ε : Type} {post weaker : α → β → Prop}
    {left : Except ε α} {right : Except ε β} (agree : Agree post left right)
    (implies : ∀ a b, post a b → weaker a b) : Agree weaker left right := by
  cases left <;> cases right
  · exact agree
  · exact agree
  · exact agree
  · exact implies _ _ agree

theorem Agree.bind {α β γ δ ε : Type} {post : α → β → Prop}
    {after : γ → δ → Prop} {left : Except ε α} {right : Except ε β}
    {f : α → Except ε γ} {g : β → Except ε δ} (agree : Agree post left right)
    (next : ∀ a b, post a b → Agree after (f a) (g b)) :
    Agree after (left >>= f) (right >>= g) := by
  cases left <;> cases right
  · exact agree
  · exact agree.elim
  · exact agree.elim
  · exact next _ _ agree

theorem agree_refl {α ε : Type} {post : α → α → Prop}
    (refl : ∀ value, post value value) (result : Except ε α) :
    Agree post result result := by
  cases result with
  | ok value => exact refl value
  | error reason => rfl

namespace Value

/-- Results without handles or identities are related to themselves. -/
theorem rel_atom : ∀ {a : Value}, a.isStructured = false → Rel matching a a
  | .integer _, _ | .float _, _ | .string _, _ | .bytes _, _
  | .connection _, _ | .boolean _, _ | .duration _, _ | .builtin _, _ => rfl
  | .null, _ | .print, _ => trivial

theorem relList_length {a b : List Value} (related : RelList matching a b) :
    a.length = b.length :=
  (relList_iff.mp related).length_eq

theorem relList_getElem? {a b : List Value} (related : RelList matching a b)
    (i : Nat) : Option.Rel (Rel matching) a[i]? b[i]? := by
  have pairs := relList_iff.mp related
  clear related
  induction pairs generalizing i with
  | nil => simp
  | cons head tail induction =>
      cases i with
      | zero => simpa using head
      | succ i => simpa using induction i

theorem relList_set {a b : List Value} {x y : Value}
    (related : RelList matching a b) (value : Rel matching x y) (i : Nat) :
    RelList matching (a.set i x) (b.set i y) := by
  have pairs := relList_iff.mp related
  clear related
  induction pairs generalizing i with
  | nil => exact trivial
  | cons head tail induction =>
      cases i with
      | zero => exact ⟨value, relList_iff.mpr tail⟩
      | succ i => exact ⟨head, induction i⟩

theorem relFields_get? : ∀ {a b : List (String × Value)},
    RelFields matching a b → ∀ key : String,
      Option.Rel (Rel matching) (SortedMap.get? a key) (SortedMap.get? b key)
  | [], [], _, _ => .none
  | (k, x) :: as, (_, y) :: bs, ⟨rfl, value, rest⟩, key => by
      have later := relFields_get? rest key
      unfold SortedMap.get? at later ⊢
      rw [List.lookup_cons, List.lookup_cons]
      cases key == k
      · exact later
      · exact .some value

theorem relFields_insert : ∀ {a b : List (String × Value)},
    RelFields matching a b → ∀ (key : String) {x y : Value},
      Rel matching x y →
      RelFields matching (SortedMap.insert a key x) (SortedMap.insert b key y)
  | [], [], _, _, _, _, value => ⟨rfl, value, trivial⟩
  | (k, u) :: as, (_, v) :: bs, ⟨rfl, head, rest⟩, key, x, y, value => by
      unfold SortedMap.insert
      split
      · exact ⟨rfl, value, rest⟩
      · split
        · exact ⟨rfl, value, rfl, head, rest⟩
        · exact ⟨rfl, head, relFields_insert rest key value⟩

theorem compareValues_structured {a b : Value}
    (structured : a.isStructured = true ∨ b.isStructured = true) :
    compareValues a b = none := by
  cases a <;> cases b <;> first | rfl | (cases structured <;> contradiction)

theorem equalValues_structured {a b : Value}
    (structured : a.isStructured = true ∨ b.isStructured = true) :
    equalValues a b = a.equal b := by
  cases a <;> cases b <;> first | rfl | (cases structured <;> contradiction)

theorem binary_structured [Formatting] {a b : Value} {op : BinaryOp}
    (structured : a.isStructured = true ∨ b.isStructured = true)
    (notEqual : op ≠ .equal ∧ op ≠ .notEqual) :
    binary a op b =
      if op.isOrder then .error (.kind .unordered)
      else if op = .add ∧ (a.isString ∨ b.isString) then
        .error (.kind .concatenation)
      else .error (.kind (.invalidBinary a.typeName b.typeName)) := by
  unfold binary orderBinary
  rw [if_neg notEqual.1, if_neg notEqual.2,
    compareValues_structured structured]
  split
  · rfl
  · split
    · have compound : a.isCompound = true ∨ b.isCompound = true := by
        rcases structured with left | right
        · left
          cases a <;> cases left <;> rfl
        · right
          cases b <;> cases right <;> rfl
      rw [if_pos compound]
    · cases a <;> cases b <;> first | rfl | (cases structured <;> contradiction)

theorem Rel.isString {a b : Value} (related : Rel matching a b) :
    a.isString = b.isString := by
  rcases related.structured with ⟨rfl, _⟩ | ⟨left, right⟩
  · rfl
  · cases a <;> cases left <;> cases b <;> cases right <;> rfl

theorem Rel.isStructured {a b : Value} (related : Rel matching a b) :
    a.isStructured = b.isStructured := by
  rcases related.structured with ⟨rfl, _⟩ | ⟨left, right⟩
  · rfl
  · rw [left, right]

theorem Rel.equalValues (faithful : matching.Faithful) {a b a' b' : Value}
    (left : Rel matching a a') (right : Rel matching b b') :
    equalValues a b = NetLang.equalValues a' b' := by
  by_cases structured : a.isStructured = true ∨ b.isStructured = true
  · rw [equalValues_structured structured, equalValues_structured,
      left.equal faithful right]
    rwa [← left.isStructured, ← right.isStructured]
  · rcases left.structured with ⟨rfl, _⟩ | ⟨bad, _⟩
    · rcases right.structured with ⟨rfl, _⟩ | ⟨bad, _⟩
      · rfl
      · exact absurd (.inr bad) structured
    · exact absurd (.inl bad) structured

end Value

open Value

/-- Neither a handle nor an identity is the result of an operator. -/
def Scalar {ε : Type} (result : Except ε Value) : Prop :=
  ∀ value, result = .ok value → value.isStructured = false

theorem scalar_ok {ε : Type} {value : Value}
    (atom : value.isStructured = false) :
    Scalar (.ok value : Except ε Value) := by
  rintro _ ⟨⟩
  exact atom

theorem scalar_error {ε : Type} {reason : ε} : Scalar (.error reason) := by
  rintro _ ⟨⟩

theorem Scalar.ofKind {result : Except ErrorKind Value}
    (scalar : Scalar result) : Scalar (Fault.ofKind result) := by
  cases result with
  | ok value => exact scalar_ok (scalar value rfl)
  | error kind => exact scalar_error

theorem integerBinary_scalar (a : Int64) (op : BinaryOp) (b : Int64) :
    Scalar (integerBinary a op b) := by
  unfold integerBinary
  split
  · exact scalar_error
  · extract_lets result
    cases result with
    | none => exact scalar_error
    | some value => exact scalar_ok rfl

theorem durationBinary_scalar (a : UInt64) (op : BinaryOp) (b : UInt64) :
    Scalar (durationBinary a op b) := by
  unfold durationBinary
  extract_lets result
  cases result with
  | none => exact scalar_error
  | some value => exact scalar_ok rfl

theorem floatBinary_scalar (a : Binary64) (op : BinaryOp) (b : Binary64) :
    Scalar (floatBinary a op b) := by
  simp only [floatBinary]
  split
  · exact scalar_error
  · split
    · exact scalar_error
    · split
      · exact scalar_ok rfl
      · exact scalar_error

theorem orderBinary_scalar (a : Value) (op : BinaryOp) (b : Value) :
    Scalar (orderBinary a op b) := by
  unfold orderBinary
  split
  · exact scalar_error
  · split
    · exact scalar_ok rfl
    · exact scalar_error

theorem binary_scalar [Formatting] (a : Value) (op : BinaryOp) (b : Value) :
    Scalar (binary a op b) := by
  unfold binary
  split
  · exact scalar_ok rfl
  split
  · exact scalar_ok rfl
  split
  · exact orderBinary_scalar a op b
  split
  · split
    · exact scalar_error
    · exact scalar_ok rfl
  split
  · split
    · exact scalar_ok rfl
    · exact scalar_error
  · exact (integerBinary_scalar _ _ _).ofKind
  · exact (durationBinary_scalar _ _ _).ofKind
  · exact (floatBinary_scalar _ _ _).ofKind
  · cases exactFloat _ with
    | ok value => exact (floatBinary_scalar _ _ _).ofKind
    | error kind => exact scalar_error
  · cases exactFloat _ with
    | ok value => exact (floatBinary_scalar _ _ _).ofKind
    | error kind => exact scalar_error
  · exact scalar_error

theorem agree_scalar {ε : Type} {result : Except ε Value}
    (scalar : Scalar result) : Agree (Rel matching) result result := by
  cases same : result with
  | ok value => exact rel_atom (scalar value same)
  | error kind => rfl

theorem binary_agree [Formatting] (faithful : matching.Faithful)
    {a b a' b' : Value} (op : BinaryOp) (left : Rel matching a a')
    (right : Rel matching b b') :
    Agree (Rel matching) (binary a op b) (binary a' op b') := by
  by_cases structured : a.isStructured = true ∨ b.isStructured = true
  · have structured' : a'.isStructured = true ∨ b'.isStructured = true := by
      rwa [← left.isStructured, ← right.isStructured]
    by_cases equality : op = .equal ∨ op = .notEqual
    · rcases equality with rfl | rfl
      · have same := left.equalValues faithful right
        exact same
      · have same := left.equalValues faithful right
        exact congrArg not same
    · have different := not_or.mp equality
      rw [binary_structured structured different,
        binary_structured structured' different, left.isString,
        right.isString, left.typeName, right.typeName]
      split
      · rfl
      · split <;> rfl
  · rcases left.structured with ⟨rfl, _⟩ | ⟨bad, _⟩
    · rcases right.structured with ⟨rfl, _⟩ | ⟨bad, _⟩
      · exact agree_scalar (binary_scalar a op b)
      · exact absurd (.inr bad) structured
    · exact absurd (.inl bad) structured

theorem unary_agree {a a' : Value} (op : UnaryOp)
    (related : Rel matching a a') :
    Agree (Rel matching) (unary op a) (unary op a') := by
  rcases related.structured with ⟨rfl, _⟩ | ⟨left, right⟩
  · apply agree_scalar
    unfold unary
    split
    · exact scalar_ok rfl
    · split
      · exact scalar_ok rfl
      · exact scalar_error
    · exact scalar_ok rfl
    · exact scalar_error
  · have failure := related.typeName
    cases op <;> cases a <;> cases left <;> cases a' <;> cases right <;>
      exact congrArg ErrorKind.invalidUnary failure

theorem asBoolean_agree {a a' : Value} (related : Rel matching a a') :
    Agree Eq a.asBoolean a'.asBoolean := by
  rcases related.structured with ⟨rfl, _⟩ | ⟨left, right⟩
  · exact agree_refl (fun _ => rfl) _
  · have failure := related.typeName
    cases a <;> cases left <;> cases a' <;> cases right <;>
      exact congrArg ErrorKind.booleanExpected failure

theorem accepts_agree {a a' : Value} (pattern : Pattern)
    (related : Rel matching a a') :
    pattern.accepts a = pattern.accepts a' := by
  rcases related.structured with ⟨rfl, _⟩ | ⟨left, right⟩
  · rfl
  · cases a <;> cases left <;> cases a' <;> cases right <;>
      cases pattern <;> rfl

/-- Selectors with the same name, or with related values. -/
def Selector.Rel (matching : Matching) : Selector → Selector → Prop
  | .property name, .property name' => name = name'
  | .index value, .index value' => Value.Rel matching value value'
  | _, _ => False

theorem Selector.Rel.mono (extends' : matching.Extends larger) :
    ∀ {a b : Selector}, Selector.Rel matching a b → Selector.Rel larger a b
  | .property _, .property _, same => same
  | .index _, .index _, related => Value.Rel.mono extends' related

theorem Selector.Rel.key : ∀ {a b : Selector}, Selector.Rel matching a b →
    a.key? = b.key?
  | .property _, .property _, rfl => rfl
  | .index a, .index b, related => by
      rcases Value.Rel.structured related with ⟨rfl, _⟩ | ⟨left, right⟩
      · rfl
      · cases a <;> cases left <;> cases b <;> cases right <;> rfl

theorem Selector.Rel.position : ∀ {a b : Selector},
    Selector.Rel matching a b → a.position? = b.position?
  | .property _, .property _, rfl => rfl
  | .index a, .index b, related => by
      rcases Value.Rel.structured related with ⟨rfl, _⟩ | ⟨left, right⟩
      · rfl
      · cases a <;> cases left <;> cases b <;> cases right <;> rfl

/-- Related options, by cases. -/
theorem optionRel_cases {α β : Type} {post : α → β → Prop} {a : Option α}
    {b : Option β} (related : Option.Rel post a b) :
    a = none ∧ b = none ∨ ∃ x y, a = some x ∧ b = some y ∧ post x y := by
  cases related with
  | none => exact .inl ⟨rfl, rfl⟩
  | some holds => exact .inr ⟨_, _, rfl, rfl, holds⟩

theorem get_agree {a a' : Value} {selector selector' : Selector}
    (related : Rel matching a a')
    (same : Selector.Rel matching selector selector') :
    Agree (Rel matching) (a.get selector) (a'.get selector') := by
  unfold Value.get
  rw [same.key, same.position]
  match a, a', related with
  | .record _ _ _ fields, .record _ _ _ fields', ⟨_, _, rfl, values⟩ =>
      cases selector'.key? with
      | none => rfl
      | some key =>
          obtain ⟨left, right⟩ | ⟨x, y, left, right, found⟩ :=
            optionRel_cases (relFields_get? values key)
          · simp [left, right, Agree]
          · simpa [left, right, Agree] using found
  | .object fields, .object fields', values =>
      cases selector'.key? with
      | none => rfl
      | some key =>
          obtain ⟨left, right⟩ | ⟨x, y, left, right, found⟩ :=
            optionRel_cases (relFields_get? values key)
          · simp [left, right, Agree]
          · simpa [left, right, Agree] using found
  | .array values, .array values', elements =>
      cases selector'.position? with
      | none => cases selector'.key? <;> rfl
      | some i =>
          have lengths := relList_length elements
          by_cases negative : i.toInt < 0
          · cases selector'.key? <;> simp [negative, Agree]
          · obtain ⟨left, right⟩ | ⟨x, y, left, right, found⟩ :=
              optionRel_cases (relList_getElem? elements i.toInt.toNat)
            · cases selector'.key? <;>
                simp only [if_neg negative, left, right, Agree, lengths]
            · cases selector'.key? <;>
                simpa only [if_neg negative, left, right, Agree] using found
  | .integer _, .integer _, _ | .float _, .float _, _
  | .string _, .string _, _ | .bytes _, .bytes _, _
  | .connection _, .connection _, _ | .boolean _, .boolean _, _
  | .duration _, .duration _, _ | .builtin _, .builtin _, _
  | .function _, .function _, _ | .null, .null, _ | .print, .print, _ =>
      cases selector'.key? <;> cases selector'.position? <;> rfl

theorem index_of_not_bytes {a : Value} (other : ∀ bytes, a ≠ .bytes bytes)
    (b : Value) : index a b = a.get (.index b) := by
  cases a with
  | bytes value => exact absurd rfl (other value)
  | _ => rfl

theorem index_agree {a a' b b' : Value} (related : Rel matching a a')
    (subscript : Rel matching b b') :
    Agree (Rel matching) (index a b) (index a' b') := by
  rcases related.structured with ⟨rfl, _⟩ | ⟨left, right⟩
  · by_cases other : ∀ bytes, a ≠ .bytes bytes
    · rw [index_of_not_bytes other, index_of_not_bytes other]
      exact get_agree related subscript
    · obtain ⟨bytes, same⟩ := not_forall.mp other
      cases not_not.mp same
      rcases subscript.structured with ⟨rfl, _⟩ | ⟨left, right⟩
      · apply agree_scalar
        cases b with
        | integer position =>
            simp only [index]
            split
            · exact scalar_error
            · split
              · exact scalar_ok rfl
              · exact scalar_error
        | _ => exact scalar_error
      · cases b <;> cases left <;> cases b' <;> cases right <;> rfl
  · rw [index_of_not_bytes, index_of_not_bytes]
    · exact get_agree related subscript
    · rintro bytes rfl
      cases right
    · rintro bytes rfl
      cases left

theorem configuredAddress_agree (transport : Transport) :
    ∀ {fields fields' : List (String × Value)},
      RelFields matching fields fields' →
      Agree Eq (configuredAddress transport fields)
        (configuredAddress transport fields')
  | [], [], _ => rfl
  | [(key, a)], [(_, a')], ⟨rfl, value, _⟩ => by
      have fields : RelFields matching [(key, a)] [(key, a')] :=
        ⟨rfl, value, trivial⟩
      have found := relFields_get? fields (addressKey transport)
      unfold configuredAddress
      obtain ⟨left, right⟩ | ⟨x, y, left, right, values⟩ :=
        optionRel_cases found
      · rw [left, right]
        rfl
      · rw [left, right]
        rcases values.structured with ⟨rfl, _⟩ | ⟨structured, structured'⟩
        · exact agree_refl (fun _ => rfl) _
        · cases x <;> cases structured <;> cases y <;>
            cases structured' <;> rfl
  | _ :: _ :: _, _ :: _ :: _, _ => rfl

section Types

variable {rewriting : Rewriting} {types types' : TypeRegistry}

/-- The registries of a program and of its rewriting. -/
structure TypesAgree (rewriting : Rewriting) (matching : Matching)
    (types types' : TypeRegistry) : Prop where
  identity : matching.token types.identity types'.identity
  definitions : types'.definitions = types.definitions.map
    fun definition => (definition.1, definition.2.map rewriting.field)

theorem TypesAgree.mono (agree : TypesAgree rewriting matching types types')
    (extends' : matching.Extends larger) :
    TypesAgree rewriting larger types types' :=
  ⟨extends'.token agree.identity, agree.definitions⟩

@[simp] theorem Rewriting.typeAnnotated_name (annotated : TypeAnnotation) :
    (rewriting.typeAnnotated annotated).name = annotated.name := by
  unfold Rewriting.typeAnnotated
  split <;> rfl

theorem TypesAgree.resolve (agree : TypesAgree rewriting matching types types')
    (name : String) : types'.resolve name = types.resolve name := by
  have position : TypeRegistry.position types'.definitions name =
      TypeRegistry.position types.definitions name := by
    unfold TypeRegistry.position
    rw [agree.definitions, List.findIdx?_map]
    rfl
  unfold TypeRegistry.resolve
  rw [position]

theorem TypesAgree.definition
    (agree : TypesAgree rewriting matching types types') (id : Nat) :
    types'.definition id = (do
      let definition ← types.definition id
      pure (definition.1, definition.2.map rewriting.field)) := by
  simp only [TypeRegistry.definition, agree.definitions, List.getElem?_map]
  cases types.definitions[id]? <;> rfl

theorem TypesAgree.name (agree : TypesAgree rewriting matching types types')
    (ty : ResolvedType) : types'.name ty = types.name ty := by
  cases ty with
  | primitive primitive => rfl
  | named id =>
      simp only [TypeRegistry.name]
      rw [agree.definition]
      obtain ⟨definition, failed⟩ := types.definition id
      cases failed <;> rfl

theorem TypesAgree.fields (agree : TypesAgree rewriting matching types types')
    (id : Nat) :
    types'.fields id = (do
      let fields ← types.fields id
      pure (fields.map rewriting.field)) := by
  unfold TypeRegistry.fields
  rw [agree.definition]
  obtain ⟨definition, failed⟩ := types.definition id
  cases failed <;> rfl

theorem TypesAgree.field? (agree : TypesAgree rewriting matching types types')
    (id : Nat) (key : String) :
    types'.field? id key = (types.field? id key).map rewriting.field := by
  unfold TypeRegistry.field?
  rw [agree.fields]
  exact List.find?_map

theorem TypesAgree.admits (faithful : matching.Faithful)
    (agree : TypesAgree rewriting matching types types')
    (ty : ResolvedType) {a a' : Value} (related : Rel matching a a') :
    types'.admits ty a' = types.admits ty a := by
  match a, a', related with
  | .record i t _ _, .record i' t' _ _, ⟨token, same, _, _⟩ =>
      cases (same : t = t')
      cases ty with
      | primitive primitive => cases primitive <;> rfl
      | named id => simp only [TypeRegistry.admits,
          beq_of_iff (faithful.token token agree.identity)]
  | .integer _, .integer _, _ | .float _, .float _, _
  | .string _, .string _, _ | .bytes _, .bytes _, _
  | .connection _, .connection _, _ | .boolean _, .boolean _, _
  | .duration _, .duration _, _ | .builtin _, .builtin _, _
  | .function _, .function _, _ | .null, .null, _ | .print, .print, _
  | .array _, .array _, _ | .object _, .object _, _ =>
      cases ty with
      | primitive primitive => cases primitive <;> rfl
      | named id => rfl

theorem TypesAgree.checkValueType (faithful : matching.Faithful)
    (agree : TypesAgree rewriting matching types types')
    (expected : Option ResolvedType) {a a' : Value}
    (related : Rel matching a a') :
    types'.checkValueType expected a' = types.checkValueType expected a := by
  cases expected with
  | none => rfl
  | some ty =>
      simp only [TypeRegistry.checkValueType, agree.name,
        agree.admits faithful ty related, related.typeName]

/-- An assignment under a path of selectors. -/
theorem set_agree (faithful : matching.Faithful)
    (agree : TypesAgree rewriting matching types types')
    {selectors selectors' : List Selector}
    (paths : List.Forall₂ (Selector.Rel matching) selectors selectors')
    {root root' value value' : Value} (roots : Rel matching root root')
    (values : Rel matching value value') :
    Agree (Rel matching) (root.set types selectors value)
      (root'.set types' selectors' value') := by
  induction paths generalizing root root' with
  | nil => exact values
  | @cons selector selector' rest rest' head tail induction =>
      have empty : rest.isEmpty = rest'.isEmpty := by
        cases tail <;> rfl
      unfold Value.set
      rw [head.key, head.position, empty]
      match root, root', roots with
      | .record i t n fields, .record i' t' _ fields',
          ⟨token, same, rfl, members⟩ =>
          cases (same : t = t')
          cases selector'.key? with
          | none => rfl
          | some key =>
              have own := faithful.token token agree.identity
              have count : types'.definitions.length =
                  types.definitions.length := by
                rw [agree.definitions, List.length_map]
              simp only [ne_eq, own, count, agree.field?]
              split
              · rfl
              split
              · rfl
              cases types.field? t key with
              | none => rfl
              | some field =>
                  simp only [Option.map_some, Rewriting.field,
                    Rewriting.typeAnnotated_name, agree.resolve,
                    agree.checkValueType faithful _ values]
                  cases types.checkValueType _ value with
                  | error kind => rfl
                  | ok checked =>
                      obtain ⟨left, right⟩ | ⟨x, y, left, right, found⟩ :=
                        optionRel_cases (relFields_get? members key)
                      · simp [left, right, Agree]
                      · have updated := induction found
                        simp only [left, right]
                        cases first : x.set types rest value <;>
                          cases second : y.set types' rest' value' <;>
                          rw [first, second] at updated
                        · exact updated
                        · exact updated.elim
                        · exact updated.elim
                        · exact ⟨token, rfl, rfl,
                            relFields_insert members key updated⟩
      | .object fields, .object fields', members =>
          cases selector'.key? with
          | none => rfl
          | some key =>
              dsimp only
              split
              · exact relFields_insert members key values
              · obtain ⟨left, right⟩ | ⟨x, y, left, right, found⟩ :=
                  optionRel_cases (relFields_get? members key)
                · simp [left, right, Agree]
                · have updated := induction found
                  simp only [left, right]
                  cases first : x.set types rest value <;>
                    cases second : y.set types' rest' value' <;>
                    rw [first, second] at updated
                  · exact updated
                  · exact updated.elim
                  · exact updated.elim
                  · exact relFields_insert members key updated
      | .array elements, .array elements', members =>
          cases selector'.position? with
          | none => cases selector'.key? <;> rfl
          | some i =>
              have lengths := relList_length members
              by_cases negative : i.toInt < 0
              · cases selector'.key? <;> simp [negative, Agree]
              · obtain ⟨left, right⟩ | ⟨x, y, left, right, found⟩ :=
                  optionRel_cases (relList_getElem? members i.toInt.toNat)
                · cases selector'.key? <;>
                    simp only [if_neg negative, left, right, Agree, lengths]
                · have updated := induction found
                  cases first : x.set types rest value <;>
                    cases second : y.set types' rest' value' <;>
                    rw [first, second] at updated
                  · cases selector'.key? <;>
                      simpa only [if_neg negative, left, right, first, second,
                        Agree] using updated
                  · exact updated.elim
                  · exact updated.elim
                  · have stored : Rel matching (.array _) (.array _) :=
                      relList_set members updated i.toInt.toNat
                    cases selector'.key? <;>
                      simpa only [if_neg negative, left, right, first, second,
                        Agree] using stored
      | .integer _, .integer _, _ | .float _, .float _, _
      | .string _, .string _, _ | .bytes _, .bytes _, _
      | .connection _, .connection _, _ | .boolean _, .boolean _, _
      | .duration _, .duration _, _ | .builtin _, .builtin _, _
      | .function _, .function _, _ | .null, .null, _ | .print, .print, _ =>
          cases selector'.key? <;> cases selector'.position? <;> rfl

end Types

theorem toByte_agree {a a' : Value} (related : Rel matching a a') :
    Agree Eq (toByte a) (toByte a') := by
  rcases related.structured with ⟨rfl, _⟩ | ⟨left, right⟩
  · exact agree_refl (fun _ => rfl) _
  · cases a <;> cases left <;> cases a' <;> cases right <;> rfl

theorem toBytes_agree : ∀ {a a' : List Value}, RelList matching a a' →
    Agree Eq (toBytes a) (toBytes a')
  | [], [], _ => rfl
  | _ :: _, _ :: _, ⟨value, rest⟩ => by
      apply (toByte_agree value).bind
      rintro byte _ rfl
      apply (toBytes_agree rest).bind
      rintro bytes _ rfl
      rfl

theorem decodeUtf8_scalar (bytes : List UInt8) :
    Scalar (decodeUtf8 bytes) := by
  unfold decodeUtf8
  split
  · exact scalar_ok rfl
  · exact scalar_error

theorem byteLength_scalar (bytes : List UInt8) :
    Scalar (byteLength bytes) := by
  unfold byteLength
  split
  · exact scalar_ok rfl
  · exact scalar_error

theorem pureBuiltin_scalar (builtin : Builtin) (value : Value) :
    Scalar (pureBuiltin builtin value) := by
  unfold pureBuiltin
  split
  · cases toBytes _ with
    | ok bytes => exact scalar_ok rfl
    | error kind => exact scalar_error
  · exact scalar_ok rfl
  · exact decodeUtf8_scalar _
  · exact byteLength_scalar _
  · exact scalar_error

theorem pureBuiltin_agree {a a' : Value} (builtin : Builtin)
    (related : Rel matching a a') :
    Agree (Rel matching) (pureBuiltin builtin a)
      (pureBuiltin builtin a') := by
  rcases related.structured with ⟨rfl, _⟩ | ⟨left, right⟩
  · exact agree_scalar (pureBuiltin_scalar builtin a)
  · have failure := congrArg (ErrorKind.unsupportedArgument builtin.name)
      related.typeName
    match a, a', related with
    | .array _, .array _, values =>
        cases builtin with
        | bytes =>
            apply (toBytes_agree values).bind
            rintro bytes _ rfl
            exact rfl
        | _ => exact failure
    | .record _ _ _ _, .record _ _ _ _, _ | .object _, .object _, _
    | .function _, .function _, _ => cases builtin <;> exact failure

end NetLang
