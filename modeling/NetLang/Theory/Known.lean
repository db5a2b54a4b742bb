import NetLang.Relational.Operations

/-!
# Records of this execution

The type id of a record is an index into the definitions of the execution
that constructed it.  A value is known to an execution if all the records in
it that carry the identity of the execution have a type id that is known.
-/

namespace NetLang

/-- The records of one execution: the type ids and fields they may have. -/
structure Records where
  identity : Nat
  known : Nat → List (String × Value) → Prop

namespace Value

mutual

/-- The type ids of the records with an identity. -/
def typeIds (identity : Nat) : Value → List Nat
  | .record owner typeId _ fields =>
      (if owner = identity then [typeId] else []) ++
        fieldTypeIds identity fields
  | .array values => listTypeIds identity values
  | .object fields => fieldTypeIds identity fields
  | _ => []

def listTypeIds (identity : Nat) : List Value → List Nat
  | [] => []
  | value :: rest => value.typeIds identity ++ listTypeIds identity rest

def fieldTypeIds (identity : Nat) : List (String × Value) → List Nat
  | [] => []
  | (_, value) :: rest => value.typeIds identity ++ fieldTypeIds identity rest

end

mutual

/-- The type ids and fields of the records with an identity. -/
def records (identity : Nat) : Value → List (Nat × List (String × Value))
  | .record owner typeId _ fields =>
      (if owner = identity then [(typeId, fields)] else []) ++
        fieldRecords identity fields
  | .array values => listRecords identity values
  | .object fields => fieldRecords identity fields
  | _ => []

def listRecords (identity : Nat) :
    List Value → List (Nat × List (String × Value))
  | [] => []
  | value :: rest => value.records identity ++ listRecords identity rest

def fieldRecords (identity : Nat) :
    List (String × Value) → List (Nat × List (String × Value))
  | [] => []
  | (_, value) :: rest => value.records identity ++ fieldRecords identity rest

end

mutual

theorem typeIds_eq (identity : Nat) :
    ∀ value : Value,
      value.typeIds identity = (value.records identity).map Prod.fst
  | .record owner typeId name fields => by
      rw [typeIds, records, List.map_append, fieldTypeIds_eq identity fields]
      split <;> simp
  | .array values => by
      rw [typeIds, records, listTypeIds_eq identity values]
  | .object fields => by
      rw [typeIds, records, fieldTypeIds_eq identity fields]
  | .integer _ | .float _ | .string _ | .bytes _ | .connection _
  | .boolean _ | .null | .duration _ | .function _ | .print
  | .builtin _ => by simp [typeIds, records]

theorem listTypeIds_eq (identity : Nat) :
    ∀ values : List Value,
      listTypeIds identity values = (listRecords identity values).map Prod.fst
  | [] => by simp [listTypeIds, listRecords]
  | value :: rest => by
      rw [listTypeIds, listRecords, List.map_append,
        typeIds_eq identity value, listTypeIds_eq identity rest]

theorem fieldTypeIds_eq (identity : Nat) :
    ∀ fields : List (String × Value),
      fieldTypeIds identity fields =
        (fieldRecords identity fields).map Prod.fst
  | [] => by simp [fieldTypeIds, fieldRecords]
  | (_, value) :: rest => by
      rw [fieldTypeIds, fieldRecords, List.map_append,
        typeIds_eq identity value, fieldTypeIds_eq identity rest]

end

theorem mem_listRecords {identity : Nat} {values : List Value}
    {entry : Nat × List (String × Value)} :
    entry ∈ listRecords identity values ↔
      ∃ value ∈ values, entry ∈ value.records identity := by
  induction values with
  | nil => simp [listRecords]
  | cons value rest induction => simp [listRecords, induction]

theorem mem_fieldRecords {identity : Nat} {fields : List (String × Value)}
    {entry : Nat × List (String × Value)} :
    entry ∈ fieldRecords identity fields ↔
      ∃ field ∈ fields, entry ∈ field.2.records identity := by
  induction fields with
  | nil => simp [fieldRecords]
  | cons field rest induction =>
      obtain ⟨key, value⟩ := field
      simp [fieldRecords, induction]

/-- The records of an execution are known. -/
def Known (records : Records) (value : Value) : Prop :=
  ∀ entry ∈ value.records records.identity, records.known entry.1 entry.2

variable {records : Records} {types : TypeRegistry}

theorem known_record {owner typeId : Nat} {name : String}
    {fields : List (String × Value)} :
    (Value.record owner typeId name fields).Known records ↔
      (owner = records.identity → records.known typeId fields) ∧
        ∀ field ∈ fields, field.2.Known records := by
  constructor
  · intro known
    refine ⟨fun same => known (typeId, fields) ?_,
      fun field member entry inside => known entry ?_⟩
    · simp [Value.records, same]
    · rw [Value.records, List.mem_append, mem_fieldRecords]
      exact .inr ⟨field, member, inside⟩
  · rintro ⟨own, inner⟩ entry member
    rw [Value.records, List.mem_append, mem_fieldRecords] at member
    rcases member with here | ⟨field, inside, found⟩
    · split at here
      · next same =>
          rw [List.mem_singleton] at here
          exact here ▸ own same
      · cases here
    · exact inner field inside entry found

theorem known_array {values : List Value} :
    (Value.array values).Known records ↔
      ∀ value ∈ values, value.Known records := by
  constructor
  · intro known value member entry inside
    exact known entry (mem_listRecords.mpr ⟨value, member, inside⟩)
  · intro each entry member
    obtain ⟨value, inside, found⟩ := mem_listRecords.mp member
    exact each value inside entry found

theorem known_object {fields : List (String × Value)} :
    (Value.object fields).Known records ↔
      ∀ field ∈ fields, field.2.Known records := by
  constructor
  · intro known field member entry inside
    exact known entry (mem_fieldRecords.mpr ⟨field, member, inside⟩)
  · intro each entry member
    obtain ⟨field, inside, found⟩ := mem_fieldRecords.mp member
    exact each field inside entry found

theorem known_atom {value : Value} (atom : value.isStructured = false) :
    value.Known records := by
  intro entry member
  cases value <;> cases atom <;> cases member

theorem known_function (id : Nat) : (Value.function id).Known records := by
  intro entry member
  cases member

theorem known_insert {fields : SortedMap Value} {key : String}
    {value : Value} (inner : ∀ field ∈ fields, field.2.Known records)
    (known : value.Known records) :
    ∀ field ∈ SortedMap.insert fields key value, field.2.Known records := by
  intro field member
  rcases SortedMap.mem_insert member with rfl | earlier
  · exact known
  · exact inner field earlier

theorem known_get? {fields : SortedMap Value} {key : String} {value : Value}
    (inner : ∀ field ∈ fields, field.2.Known records)
    (found : SortedMap.get? fields key = some value) : value.Known records :=
  inner _ (SortedMap.mem_of_get? found)

theorem Known.get {object value : Value} {selector : Selector}
    (known : object.Known records) (got : object.get selector = .ok value) :
    value.Known records := by
  unfold Value.get at got
  split at got
  · split at got
    · next found =>
        cases got
        exact known_get? (known_record.mp known).2 found
    · cases got
  · split at got
    · next found =>
        cases got
        exact known_get? (known_object.mp known) found
    · cases got
  · split at got
    · cases got
    · split at got
      · next found =>
          cases got
          exact known_array.mp known _ (List.mem_of_getElem? found)
      · cases got
  · cases got

/-- A field of a record may be given a new value. -/
def Takes (types : TypeRegistry) (id : Nat) (key : String)
    (old new : Value) : Prop :=
  (∃ field, types.field? id key = some field ∧
    ∀ ty, types.resolve field.annotated.name = some ty →
      types.admits ty new = true) ∨
    ∀ ty, types.admits ty old = true → types.admits ty new = true

/-- Records stay known when their fields are given new values. -/
def Updates (records : Records) (types : TypeRegistry) : Prop :=
  ∀ {id fields key old new}, records.known id fields →
    SortedMap.get? fields key = some old → Takes types id key old new →
    records.known id (SortedMap.insert fields key new)

theorem admits_of_check {expected : Option ResolvedType} {value : Value}
    (checked : types.checkValueType expected value = .ok ())
    {ty : ResolvedType} (same : expected = some ty) :
    types.admits ty value = true := by
  subst same
  cases admitted : types.admits ty value with
  | true => rfl
  | false =>
      simp only [TypeRegistry.checkValueType, admitted] at checked
      split at checked
      · next impossible => cases impossible
      · split at checked <;> cases checked

/-- The fields of a record do not matter for its type. -/
theorem admits_record (ty : ResolvedType) (owner typeId : Nat)
    (name : String) (fields others : List (String × Value)) :
    types.admits ty (.record owner typeId name fields) =
      types.admits ty (.record owner typeId name others) := by
  cases ty with
  | named id => rfl
  | primitive primitive => cases primitive <;> rfl

theorem admits_object (ty : ResolvedType) (fields : List (String × Value)) :
    types.admits ty (.object fields) = false := by
  cases ty with
  | named id => rfl
  | primitive primitive => cases primitive <;> rfl

theorem admits_array (ty : ResolvedType) (values : List Value) :
    types.admits ty (.array values) = false := by
  cases ty with
  | named id => rfl
  | primitive primitive => cases primitive <;> rfl

/-- An update inside of a value does not change its type. -/
theorem set_admits {selector : Selector} {rest : List Selector}
    {root value after : Value}
    (done : root.set types (selector :: rest) value = .ok after)
    (ty : ResolvedType) : types.admits ty after = types.admits ty root := by
  unfold Value.set at done
  split at done
  · split at done
    · cases done
    · split at done
      · cases done
      · split at done
        · cases done
        · simp only at done
          split at done
          · cases done
          · split at done
            · cases done
            · split at done
              · cases done
              · cases done
                exact admits_record ty _ _ _ _ _
  · have object : ∃ fields, after = .object fields := by
      split at done
      · cases done
        exact ⟨_, rfl⟩
      · split at done
        · cases done
        · split at done
          · cases done
          · cases done
            exact ⟨_, rfl⟩
    obtain ⟨fields, rfl⟩ := object
    rw [admits_object, admits_object]
  · have array : ∃ values, after = .array values := by
      split at done
      · cases done
      · split at done
        · cases done
        · split at done
          · cases done
          · cases done
            exact ⟨_, rfl⟩
    obtain ⟨values, rfl⟩ := array
    rw [admits_array, admits_array]
  · cases done

/-- What was checked, or is of the same type, may be put into a field. -/
theorem takes_of_set {id : Nat} {key : String} {field : TypeField}
    {rest : List Selector} {child value after : Value}
    (declared : types.field? id key = some field)
    (checked : types.checkValueType (if rest.isEmpty then
      types.resolve field.annotated.name else none) value = .ok ())
    (done : child.set types rest value = .ok after) :
    Takes types id key child after := by
  cases rest with
  | nil =>
      unfold Value.set at done
      cases done
      exact .inl ⟨field, declared, fun ty => admits_of_check checked⟩
  | cons selector rest =>
      refine .inr fun ty admitted => ?_
      rw [set_admits done ty]
      exact admitted

/-- What an update of a known value leads to. -/
def SetKnown (records : Records) (types : TypeRegistry) :
    Except Fault Value → Prop
  | .ok value => value.Known records
  | .error (.kind _) => True
  | .error .panic =>
      ¬ ∀ id fields, records.known id fields → id < types.definitions.length

/-- An update inside of a known value leads to one, and finds the type of
every record it changes if all known types are in the registry. -/
theorem Known.set (own : records.identity = types.identity)
    (updates : Updates records types) {selectors : List Selector}
    {root value : Value}
    (known : root.Known records) (new : value.Known records) :
    SetKnown records types (root.set types selectors value) := by
  induction selectors generalizing root with
  | nil =>
      unfold Value.set
      exact new
  | cons selector rest induction =>
      have inside : ∀ {child : Value}, child.Known records →
          SetKnown records types (child.set types rest value) := induction
      unfold Value.set
      split
      · next owner typeId name fields key _ _ =>
          have parts := known_record.mp known
          split
          · trivial
          · next ours =>
              have known := parts.1 ((not_not.mp ours).trans own.symm)
              split
              · next outside =>
                  exact fun bounded => absurd (bounded _ _ known) (by omega)
              split
              · trivial
              · next field declared =>
                extract_lets expected
                split
                · next fault failed =>
                  cases fault with
                  | kind kind => trivial
                  | panic =>
                    refine absurd failed
                      (TypeRegistry.checkValueType_defined fun ty asked => ?_)
                    unfold expected at asked
                    split at asked
                    · exact TypeRegistry.defines_of_resolve asked
                    · cases asked
                · next checked =>
                  split
                  · trivial
                  · next child found =>
                      have set := inside (known_get? parts.2 found)
                      split
                      · next fault failed => rwa [failed] at set
                      · next child' done =>
                          rw [done] at set
                          have takes := takes_of_set declared checked done
                          exact known_record.mpr
                            ⟨fun _ => updates known found takes,
                              known_insert parts.2 set⟩
      · next fields _ _ _ =>
          have inner := known_object.mp known
          split
          · exact known_object.mpr (known_insert inner new)
          · split
            · trivial
            · next child found =>
                have set := inside (known_get? inner found)
                split
                · next fault failed => rwa [failed] at set
                · next child' done =>
                    rw [done] at set
                    exact known_object.mpr (known_insert inner set)
      · next values _ _ _ =>
          have inner := known_array.mp known
          split
          · trivial
          · split
            · trivial
            · next child found =>
                have set := inside (inner _ (List.mem_of_getElem? found))
                split
                · next fault failed => rwa [failed] at set
                · next child' done =>
                    rw [done] at set
                    refine known_array.mpr fun element member => ?_
                    rcases List.mem_or_eq_of_mem_set member with old | rfl
                    · exact inner element old
                    · exact set
      · trivial

theorem Known.index {object subscript value : Value}
    (known : object.Known records)
    (got : NetLang.index object subscript = .ok value) :
    value.Known records := by
  unfold NetLang.index at got
  split at got
  · split at got
    · cases got
    · split at got
      · cases got
        exact known_atom rfl
      · cases got
  · cases got
  · exact known.get got

theorem known_unary {operator : UnaryOp} {operand value : Value}
    (applied : unary operator operand = .ok value) : value.Known records := by
  unfold unary at applied
  split at applied
  · cases applied
    exact known_atom rfl
  · split at applied
    · cases applied
      exact known_atom rfl
    · cases applied
  · cases applied
    exact known_atom rfl
  · cases applied

end Value

end NetLang
