import NetLang.Semantic.Analyze
import NetLang.Types.Cycles

/-!
# Reads of the analyzer

Every type that the analyzer knows is primitive or has a definition, so that
no read of a definition is out of bounds.
-/

namespace NetLang

/-- The types that a symbol mentions. -/
def Symbol.types : Symbol → List ResolvedType
  | .variable annotated | .parameter annotated => annotated.toList
  | .function _ parameters returnType =>
      parameters.flatMap Option.toList ++ returnType.toList
  | .loopVariable | .builtin => []

namespace Analyzer

theorem annotationType_defined {static : Static}
    {annotated : Option TypeAnnotation} {ty : ResolvedType}
    (found : annotationType static annotated = some ty) :
    static.types.Defines ty := by
  obtain ⟨written, _, resolved⟩ := Option.bind_eq_some_iff.mp found
  exact TypeRegistry.defines_of_resolve resolved

/-- A symbol of which every type is defined. -/
def Declarable (types : TypeRegistry) (symbol : Symbol) : Prop :=
  ∀ ty ∈ symbol.types, types.Defines ty

theorem variable_declarable (static : Static)
    (annotated : Option TypeAnnotation) :
    Declarable static.types (.variable (annotationType static annotated)) :=
  fun _ member => annotationType_defined (by simpa [Symbol.types] using member)

theorem parameter_declarable (static : Static)
    (annotated : Option TypeAnnotation) :
    Declarable static.types (.parameter (annotationType static annotated)) :=
  fun _ member => annotationType_defined (by simpa [Symbol.types] using member)

theorem loopVariable_declarable (types : TypeRegistry) :
    Declarable types .loopVariable :=
  fun _ member => nomatch member

theorem functionSymbol_declarable (static : Static)
    (parameters : List Parameter) (returnAnnotated : Option TypeAnnotation) :
    Declarable static.types
      (functionSymbol static parameters returnAnnotated) := by
  intro ty member
  rw [functionSymbol, Symbol.types, List.mem_append] at member
  rcases member with parameter | result
  · obtain ⟨annotated, inside, here⟩ := List.mem_flatMap.mp parameter
    obtain ⟨parameter, _, rfl⟩ := List.mem_map.mp inside
    exact annotationType_defined (Option.mem_toList.mp here)
  · exact annotationType_defined (Option.mem_toList.mp result)

end Analyzer

/-- Every type that is known somewhere is primitive or has a definition. -/
structure Static.Sound (static : Static) : Prop where
  symbols : ∀ scope ∈ static.scopes, ∀ entry ∈ scope.symbols,
    Analyzer.Declarable static.types entry.2
  returnType : ∀ ty, static.returnType = some ty → static.types.Defines ty

/-- A resolved name is declared in one of the scopes. -/
theorem Scopes.mem_of_resolve {scopes : Scopes} {name : String}
    {symbol : Symbol} (found : scopes.resolve name = some symbol) :
    ∃ scope ∈ scopes, ∃ entry ∈ scope.symbols, entry.2 = symbol := by
  induction scopes with
  | nil => cases found
  | cons scope outer induction =>
      cases here : NameMap.get? scope.symbols name with
      | some other =>
          simp only [Scopes.resolve, resolveWithDepth, here, Option.map_some,
            Option.some.injEq] at found
          subst found
          exact ⟨scope, List.mem_cons_self, _,
            SortedMap.mem_of_get? here, rfl⟩
      | none =>
          simp only [Scopes.resolve, resolveWithDepth, here] at found
          obtain ⟨inner, member, inside⟩ := induction found
          exact ⟨inner, List.mem_cons_of_mem _ member, inside⟩

section Reads

variable {types : TypeRegistry} {static : Static}

theorem typeName_failed {ty : ResolvedType} (defined : types.Defines ty) :
    (typeName types ty).failed = false := by
  rw [typeName, Read.failed_bind, TypeRegistry.name_failed defined]
  rfl

theorem fieldType_failed (object : Option String) (name : String) :
    (fieldType types object name).failed = false := by
  cases object with
  | none => rfl
  | some object =>
      unfold fieldType
      cases resolved : types.resolve object with
      | none => simp only [resolved, Read.failed_pure]
      | some ty =>
          cases ty with
          | primitive primitive => simp only [resolved, Read.failed_pure]
          | named id =>
              simp only [resolved, Read.failed_bind, Read.failed_pure,
                TypeRegistry.fields_failed
                  (TypeRegistry.lt_of_resolve resolved), Bool.or_false]

theorem constructedFields_failed (name : String) :
    (Analyzer.constructedFields static name).failed = false := by
  unfold Analyzer.constructedFields
  split
  · next id resolved =>
      rw [Read.failed_bind, TypeRegistry.fields_failed
        (TypeRegistry.lt_of_resolve resolved)]
      rfl
  · rfl

variable (sound : static.Sound)
include sound

theorem Static.Sound.resolved {name : String} {symbol : Symbol}
    (found : static.scopes.resolve name = some symbol) :
    Analyzer.Declarable static.types symbol := by
  obtain ⟨scope, member, entry, inside, rfl⟩ := Scopes.mem_of_resolve found
  exact sound.symbols scope member entry inside

theorem identifierType_failed (name : String) :
    (identifierType static name).failed = false := by
  unfold identifierType
  split
  · next ty found =>
      exact typeName_failed (sound.resolved found ty (by simp [Symbol.types]))
  · next ty found =>
      exact typeName_failed (sound.resolved found ty (by simp [Symbol.types]))
  · rfl
  · rfl
  · rfl

theorem callType_failed (callee : Expr) :
    (callType static callee).failed = false := by
  unfold callType
  split
  · split
    · next ty found =>
        exact typeName_failed
          (sound.resolved found ty (by simp [Symbol.types]))
    · rfl
  · rfl

/-- The reads of a known type are not out of bounds. -/
theorem knownType_failed :
    ∀ node, (knownType static node).failed = false
  | .located _ inner => by
      rw [knownType, knownType_failed inner]
  | .property object name => by
      rw [knownType, Read.failed_bind, knownType_failed object,
        fieldType_failed]
      rfl
  | .index object index => by
      rw [knownType]
      cases index.unspanned.stringLiteral? with
      | none => rfl
      | some name =>
          dsimp only
          rw [Read.failed_bind, knownType_failed object, fieldType_failed]
          rfl
  | .construct name _ => by
      rw [knownType]
      cases resolved : static.types.resolve name with
      | none => rfl
      | some ty =>
          exact typeName_failed (TypeRegistry.defines_of_resolve resolved)
  | .integer _ | .float _ | .boolean _ | .string _ | .duration _ | .null
  | .array _ | .object _ => by
      rw [knownType]
      rfl
  | .identifier name => by
      rw [knownType, identifierType_failed sound]
  | .assignment _ value => by
      rw [knownType, knownType_failed value]
  | .call callee _ => by
      rw [knownType, callType_failed sound]
  | .unary .not _ => by
      rw [knownType]
      rfl
  | .unary .negate operand => by
      rw [knownType, Read.failed_bind, knownType_failed operand]
      rfl
  | .binary left op right => by
      rw [knownType]
      split
      · rfl
      · rw [Read.failed_bind, knownType_failed left, Bool.false_or]
        split
        · rfl
        · rw [Read.failed_bind, knownType_failed right]
          rfl
  | .connection _ _ _ | .send _ _ _ | .receive _ | .request _ _ _ => by
      rw [knownType]
      rfl

namespace Analyzer

theorem memberType_failed (target : Expr) :
    (memberType static target).failed = false := by
  rw [memberType, Read.failed_bind, knownType_failed sound]
  rfl

theorem lacksMember_failed (object : Expr) (name : String) :
    (lacksMember static object name).failed = false := by
  rw [lacksMember, Read.failed_bind, knownType_failed sound, Bool.false_or]
  split
  · rfl
  · split
    · next id resolved =>
        rw [Read.failed_bind, TypeRegistry.fields_failed
          (TypeRegistry.lt_of_resolve resolved)]
        rfl
    · rfl

theorem targetType_failed (target : Expr) :
    (targetType static target).failed = false := by
  unfold targetType
  split
  · exact memberType_failed sound _
  · exact memberType_failed sound _
  · rfl
  · rfl

theorem targetType_defined {target : Expr} {ty : ResolvedType}
    (known : (targetType static target).value = some ty) :
    static.types.Defines ty := by
  unfold targetType at known
  split at known
  · obtain ⟨name, _, found⟩ := Option.bind_eq_some_iff.mp known
    exact TypeRegistry.defines_of_resolve found
  · obtain ⟨name, _, found⟩ := Option.bind_eq_some_iff.mp known
    exact TypeRegistry.defines_of_resolve found
  · obtain ⟨symbol, found, annotated⟩ := Option.bind_eq_some_iff.mp known
    refine sound.resolved found ty ?_
    cases symbol <;> simp_all [Symbol.annotated, Symbol.types]
  · cases known

theorem calleeParameters_defined (callee : Expr) :
    ∀ expected ∈ calleeParameters static callee,
      ∀ ty, expected = some ty → static.types.Defines ty := by
  unfold calleeParameters
  split
  · split
    · next found =>
        intro expected member ty same
        refine sound.resolved found ty ?_
        rw [Symbol.types, List.mem_append]
        exact .inl (List.mem_flatMap.mpr
          ⟨expected, member, Option.mem_toList.mpr same⟩)
    · exact fun _ member => absurd member List.not_mem_nil
  · exact fun _ member => absurd member List.not_mem_nil

end Analyzer

end Reads

end NetLang
