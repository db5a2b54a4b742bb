import NetLang.Semantic.Covered
import NetLang.Types.Cycles

/-!
# Types and constructors of accepted programs

In an accepted program every field of a declared type has a type, no type
requires itself, and a constructor gives the fields of its type.
-/

namespace NetLang

namespace TypeRegistry

/-- A constructor of the type gives its fields and no others. -/
def Constructs (types : TypeRegistry) (name : String)
    (fields : List (String × Expr)) : Prop :=
  ∀ id, types.resolve name = some (.named id) →
    (∀ field ∈ fields, ∃ declared, types.field? id field.1 = some declared) ∧
    ∀ declared ∈ (types.fields id).value, ∃ field ∈ fields, field.1 = declared.name

/-- All fields of declared types have types. -/
def Annotated (types : TypeRegistry) : Prop :=
  ∀ id, ∀ field ∈ (types.fields id).value,
    ∃ ty, types.resolve field.annotated.name = some ty

/-- No declared type requires itself. -/
def Acyclic (types : TypeRegistry) : Prop :=
  ∀ id, ¬ Relation.TransGen types.Requires id id

theorem collect_declared {list : List Stmt}
    {definitions : List (String × List TypeField)}
    {definition : String × List TypeField}
    (member : definition ∈ collect list definitions) :
    definition ∈ definitions ∨
      ∃ node ∈ list, node.unspanned = .type definition.1 definition.2 := by
  induction list generalizing definitions with
  | nil => exact .inl member
  | cons node rest induction =>
      have later : ∀ {definitions : List (String × List TypeField)},
          definition ∈ collect rest definitions →
          definition ∈ definitions ∨ ∃ other ∈ node :: rest,
            other.unspanned = .type definition.1 definition.2 := by
        intro definitions inside
        rcases induction inside with known | ⟨other, found, shape⟩
        · exact .inl known
        · exact .inr ⟨other, List.mem_cons_of_mem _ found, shape⟩
      cases shape : node.unspanned with
      | type name fields =>
          simp only [collect, shape] at member
          split at member
          · exact later member
          · rcases later member with known | other
            · rcases List.mem_append.mp known with old | here
              · exact .inl old
              · rw [List.mem_singleton] at here
                subst here
                exact .inr ⟨node, List.mem_cons_self, shape⟩
            · exact .inr other
      | _ =>
          simp only [collect, shape] at member
          exact later member

/-- The definition of a type is a statement of the program. -/
theorem new_declared {identity id : Nat} {program : Program}
    (bound : id < (new identity program).definitions.length) :
    ∃ node ∈ program.statements,
      node.unspanned = .type ((new identity program).name (.named id)).value
        ((new identity program).fields id).value := by
  have found := List.getElem?_eq_getElem bound
  have member := List.mem_of_getElem? found
  rcases collect_declared member with known | declared
  · cases known
  · simpa [name, fields, definition, found] using declared

theorem lt_of_field {types : TypeRegistry} {id : Nat} {field : TypeField}
    (member : field ∈ (types.fields id).value) :
    id < types.definitions.length := by
  cases found : types.definitions[id]? with
  | none => simp [fields, definition, found] at member
  | some definition => exact (List.getElem?_eq_some_iff.mp found).1

end TypeRegistry

namespace Analyzer

variable {final : Analyzer} {static : Static} {point : Point}

section Checks

variable {analyzer : Analyzer}

/-- A field that is not declared was reported. -/
theorem constructorFields_declared {name : String}
    {definition : List TypeField} {i : Nat} {fields : List (String × Expr)}
    {seen : List String} (valid : ¬ final.Reports .invalidConstructor)
    (held : (constructorFields point name (some definition) i fields seen
      analyzer).Gathers final) :
    ∀ field ∈ fields, ∃ declared,
      definition.find? (fun declared => declared.name == field.1) =
        some declared := by
  induction fields generalizing i seen analyzer with
  | nil => simp
  | cons field rest induction =>
      obtain ⟨key, value⟩ := field
      rw [constructorFields] at held
      have here := (standing.constructorFields _ _ _ _ _ _ _).gathers.trans held
      intro other member
      rcases List.mem_cons.mp member with rfl | later
      · cases found : definition.find? fun declared =>
            declared.name == key with
        | some declared => exact ⟨declared, rfl⟩
        | none =>
            simp only [constructorField, found] at here
            exact absurd (reports_of here) valid
      · exact induction held other later

/-- A field that is not given was reported. -/
theorem missingFields_given {name : String} {given : List String}
    {fields : List TypeField} (valid : ¬ final.Reports .invalidConstructor)
    (held : (missingFields point name given fields analyzer).Gathers final) :
    ∀ declared ∈ fields, declared.name ∈ given := by
  induction fields generalizing analyzer with
  | nil => simp
  | cons field rest induction =>
      rw [missingFields] at held
      have here := (standing.missingFields _ _ _ _ _).gathers.trans held
      intro other member
      rcases List.mem_cons.mp member with rfl | later
      · by_cases inside : other.name ∈ given
        · exact inside
        · simp only [List.contains_iff_mem, inside, if_false] at here
          exact absurd (reports_of here) valid
      · exact induction held other later

/-- An annotation of a field that does not resolve was reported. -/
theorem typeFields_annotated {name : String} {fields : List TypeField}
    {seen : List String} (known : ¬ final.Reports .unknownType)
    (held : (typeFields point name fields seen analyzer).Gathers final) :
    ∀ field ∈ fields,
      ∃ ty, analyzer.types.resolve field.annotated.name = some ty := by
  induction fields generalizing seen analyzer with
  | nil => simp
  | cons field rest induction =>
      rw [typeFields] at held
      have here := (standing.typeFields _ _ _ _ _).gathers.trans held
      generalize entered : (if seen.contains field.name then
          analyzer.report point .duplicateDeclaration
            s!"duplicate field '{field.name}' in type '{name}'"
        else analyzer) = checked at held here
      have types : checked.types = analyzer.types := by
        rw [← entered]
        split <;> rfl
      have after : (checked.resolveType point field.annotated).types =
          analyzer.types := by
        rw [(standing.resolveType checked point field.annotated).static]
        exact types
      intro other member
      rcases List.mem_cons.mp member with rfl | later
      · cases found : analyzer.types.resolve other.annotated.name with
        | some ty => exact ⟨ty, rfl⟩
        | none =>
            rw [← types] at found
            simp only [resolveType, found] at here
            have covers : Covers final checked.toStatic fun analyzer =>
                analyzer.located other.annotated.span fun analyzer =>
                  analyzer.report point .unknownType
                    s!"unknown type '{other.annotated.name}'" :=
              ⟨checked, rfl, here⟩
            obtain ⟨inner, _, reported⟩ := covers.located
            exact absurd (reports_of reported) known
      · rw [← after]
        exact induction held other later

end Checks

/-- A constructor that was not reported gives the fields of its type. -/
theorem covers_constructor {name : String} {fields : List (String × Expr)}
    (covers : Covers final static (expression point (.construct name fields)))
    (valid : ¬ final.Reports .invalidConstructor) :
    static.types.Constructs name fields := by
  obtain ⟨analyzer, rfl, held⟩ := covers
  intro id resolved
  have defined : (constructedFields analyzer.toStatic name).value =
      some (analyzer.types.fields id).value := by
    simp [constructedFields, resolved]
  rw [expression] at held
  simp only [visit, defined, Option.getD_some] at held
  have walked := (standing.missingFields _ _ _ _ _).gathers.trans held
  refine ⟨constructorFields_declared valid walked, ?_⟩
  intro declared member
  have given := missingFields_given valid held declared member
  exact List.mem_map.mp given

/-- The fields of a declaration that was not reported have types, and it
requires no type that requires it. -/
theorem covers_typeDeclaration {name : String} {fields : List TypeField}
    (covers : Covers final static fun analyzer =>
      analyzer.typeDeclaration point name fields)
    (known : ¬ final.Reports .unknownType)
    (valid : ¬ final.Reports .invalidTypeDeclaration) :
    (∀ field ∈ fields,
      ∃ ty, static.types.resolve field.annotated.name = some ty) ∧
      (static.types.hasRequiredCycle name).value = false := by
  obtain ⟨analyzer, rfl, held⟩ := covers
  beta_reduce at held
  unfold typeDeclaration at held
  extract_lets top reserved declared filled cycle searched at held
  have first : top.types = analyzer.types := by
    unfold top
    split <;> rfl
  have second : reserved.types = top.types := by
    unfold reserved
    split <;> rfl
  have third : declared.types = reserved.types := by
    unfold declared
    split <;> rfl
  have same : declared.types = analyzer.types :=
    (third.trans second).trans first
  have still : declared.Still filled := standing.typeFields _ _ _ _ _
  have after : filled.types = analyzer.types := by
    rw [still.static]
    exact same
  cases cyclic : cycle.value with
  | true =>
      simp only [cyclic, if_true] at held
      exact absurd (reports_of held) valid
  | false =>
      simp only [cyclic, Bool.false_eq_true, if_false] at held
      rw [← after]
      refine ⟨?_, cyclic⟩
      rw [after, ← same]
      exact typeFields_annotated known
        ((reading_still _ _).gathers.trans held)

/-- The statements of a list are analyzed under the same types. -/
theorem covers_member {i : Nat} {list : List Stmt} {node : Stmt}
    (covers : Covers final static (listed point i list))
    (member : node ∈ list) :
    ∃ inner at_, inner.types = static.types ∧
      Covers final inner (statement .listed at_ node) := by
  induction list generalizing i static with
  | nil => cases member
  | cons first rest induction =>
      obtain ⟨here, others⟩ := covers_listed covers
      rcases List.mem_cons.mp member with rfl | later
      · exact ⟨static, i :: point, rfl, here⟩
      · obtain ⟨inner, at_, types, found⟩ := induction others later
        refine ⟨inner, at_, types.trans ?_, found⟩
        rw [(static.passed_beside first).same]

end Analyzer

end NetLang
