import NetLang.Semantic.Declared
import NetLang.Theory.Agreement

/-!
# Records of accepted programs

A record that an execution has constructed has the fields of its type, and
each of them a value of its own type.  No type requires itself, so records are
nested no deeper than there are types.
-/

namespace NetLang

open Interp Guard

namespace TypeRegistry

variable {types : TypeRegistry}

/-- The fields of a record are those of its type, with values of theirs. -/
structure Typed (types : TypeRegistry) (id : Nat)
    (fields : List (String × Value)) : Prop where
  bound : id < types.definitions.length
  entries : ∀ entry ∈ fields, ∃ field ty,
    types.field? id entry.1 = some field ∧
      types.resolve field.annotated.name = some ty ∧
      types.admits ty entry.2 = true
  complete : ∀ field ∈ (types.fields id).value,
    (SortedMap.get? fields field.name).isSome

/-- The records whose fields are typed. -/
def records (types : TypeRegistry) : Records :=
  ⟨types.identity, types.Typed⟩

theorem typed_updates : Value.Updates types.records types := by
  intro id fields key old new typed found takes
  refine ⟨typed.bound, ?_, ?_⟩
  · intro entry member
    rcases SortedMap.mem_insert member with rfl | earlier
    · obtain ⟨field, ty, declared, resolved, admitted⟩ :=
        typed.entries _ (SortedMap.mem_of_get? found)
      refine ⟨field, ty, declared, resolved, ?_⟩
      rcases takes with ⟨other, same, checked⟩ | alike
      · cases declared.symm.trans same
        exact checked ty resolved
      · exact alike ty admitted
    · exact typed.entries entry earlier
  · intro field member
    rw [SortedMap.get?_insert]
    split
    · rfl
    · exact typed.complete field member

theorem typed_of_builds {name : String} {fields : List (String × Expr)}
    {id : Nat} {values : SortedMap Value} (annotated : types.Annotated)
    (constructs : types.Constructs name fields)
    (resolved : types.resolve name = some (.named id))
    (built : types.Builds id fields values) : types.Typed id values := by
  obtain ⟨declares, gives⟩ := constructs id resolved
  refine ⟨lt_of_resolve resolved, ?_, ?_⟩
  · intro entry member
    obtain ⟨⟨field, given, same⟩, admitted⟩ := built.entries entry member
    obtain ⟨declared, found⟩ := declares field given
    rw [same] at found
    obtain ⟨ty, typed⟩ := annotated id declared (List.mem_of_find?_eq_some found)
    exact ⟨declared, ty, found, typed, admitted declared found ty typed⟩
  · intro declared member
    obtain ⟨field, given, same⟩ := gives declared member
    rw [← same]
    exact built.complete field given

end TypeRegistry

namespace Value

mutual

/-- How deep records are nested in a value. -/
def nesting : Value → Nat
  | .record _ _ _ fields => fieldNesting fields + 1
  | .array values => listNesting values
  | .object fields => fieldNesting fields
  | _ => 0

def listNesting : List Value → Nat
  | [] => 0
  | value :: rest => max value.nesting (listNesting rest)

def fieldNesting : List (String × Value) → Nat
  | [] => 0
  | (_, value) :: rest => max value.nesting (fieldNesting rest)

end

theorem fieldNesting_le {fields : List (String × Value)} {bound : Nat}
    (each : ∀ field ∈ fields, field.2.nesting ≤ bound) :
    fieldNesting fields ≤ bound := by
  induction fields with
  | nil => simp [fieldNesting]
  | cons field rest induction =>
      obtain ⟨key, value⟩ := field
      rw [fieldNesting]
      have first := each (key, value) List.mem_cons_self
      have others := induction fun field member =>
        each field (List.mem_cons_of_mem _ member)
      exact max_le first others

variable {types : TypeRegistry}

theorem nesting_primitive {primitive : PrimitiveType} {value : Value}
    (admitted : types.admits (.primitive primitive) value = true) :
    value.nesting = 0 := by
  cases primitive <;> cases value <;>
    first | rfl | simp [TypeRegistry.admits] at admitted

theorem admits_named {id : Nat} {value : Value}
    (admitted : types.admits (.named id) value = true) :
    ∃ name fields, value = .record types.identity id name fields := by
  cases value <;> simp [TypeRegistry.admits] at admitted
  obtain ⟨rfl, rfl⟩ := admitted
  exact ⟨_, _, rfl⟩

/-- The types on the way to a record are distinct, so no more are left for
the records inside of it. -/
theorem nesting_le (acyclic : types.Acyclic) (value : Value) {id : Nat}
    {path : List Nat} (admitted : types.admits (.named id) value = true)
    (known : value.Known types.records) (distinct : path.Nodup)
    (leads : ∀ other ∈ path, Relation.TransGen types.Requires other id)
    (bound : ∀ other ∈ path, other < types.definitions.length) :
    value.nesting + path.length ≤ types.definitions.length := by
  obtain ⟨name, fields, rfl⟩ := admits_named admitted
  obtain ⟨own, inner⟩ := known_record.mp known
  have typed : types.Typed id fields := own rfl
  have fresh : id ∉ path := fun member => acyclic id (leads id member)
  have longer : (id :: path).Nodup := List.nodup_cons.mpr ⟨fresh, distinct⟩
  have inside : ∀ other ∈ id :: path, other < types.definitions.length := by
    intro other member
    rcases List.mem_cons.mp member with rfl | earlier
    · exact typed.bound
    · exact bound other earlier
  have room : (id :: path).length ≤ types.definitions.length := by
    have subset : id :: path ⊆ List.range types.definitions.length :=
      fun other member => List.mem_range.mpr (inside other member)
    have shorter := (longer.subperm subset).length_le
    simpa using shorter
  have each : ∀ field ∈ fields, field.2.nesting ≤
      types.definitions.length - (id :: path).length := by
    intro field member
    obtain ⟨declared, ty, found, resolved, admitted⟩ :=
      typed.entries field member
    cases ty with
    | primitive primitive =>
        rw [nesting_primitive admitted]
        exact Nat.zero_le _
    | named other =>
        have edge : types.Requires id other :=
          ⟨declared, List.mem_of_find?_eq_some found, resolved⟩
        have onward : ∀ earlier ∈ id :: path,
            Relation.TransGen types.Requires earlier other := by
          intro earlier before
          rcases List.mem_cons.mp before with rfl | old
          · exact .single edge
          · exact (leads earlier old).tail edge
        have smaller := nesting_le acyclic field.2 admitted
          (inner field member) longer onward inside
        omega
  have nested := fieldNesting_le each
  rw [nesting]
  simp only [List.length_cons] at nested room
  omega
termination_by sizeOf value
decreasing_by
  subst_vars
  have smaller := List.sizeOf_lt_of_mem member
  obtain ⟨key, value⟩ := field
  simp only [Value.record.sizeOf_spec, Prod.mk.sizeOf_spec] at smaller ⊢
  omega

/-- A value is part of another. -/
inductive Inside : Value → Value → Prop where
  | refl (value : Value) : Inside value value
  | record {part : Value} {owner typeId : Nat} {name : String}
      {fields : List (String × Value)} {field : String × Value}
      (member : field ∈ fields) (inside : Inside part field.2) :
      Inside part (.record owner typeId name fields)
  | array {part element : Value} {values : List Value}
      (member : element ∈ values) (inside : Inside part element) :
      Inside part (.array values)
  | object {part : Value} {fields : List (String × Value)}
      {field : String × Value} (member : field ∈ fields)
      (inside : Inside part field.2) : Inside part (.object fields)

theorem Known.inside {records : Records} {part value : Value}
    (inside : part.Inside value) (known : value.Known records) :
    part.Known records := by
  induction inside with
  | refl => exact known
  | record member _ induction =>
      exact induction ((known_record.mp known).2 _ member)
  | array member _ induction =>
      exact induction (known_array.mp known _ member)
  | object member _ induction =>
      exact induction (known_object.mp known _ member)

theorem inside_of_records {identity : Nat} (value : Value)
    {entry : Nat × List (String × Value)}
    (member : entry ∈ value.records identity) :
    ∃ name, (Value.record identity entry.1 name entry.2).Inside value := by
  cases shape : value with
  | record owner typeId name fields =>
      rw [shape, records, List.mem_append, mem_fieldRecords] at member
      rcases member with here | ⟨field, inner, found⟩
      · split at here
        · next same =>
            rw [List.mem_singleton] at here
            subst here same
            exact ⟨name, .refl _⟩
        · cases here
      · obtain ⟨name, inside⟩ := inside_of_records field.2 found
        exact ⟨name, .record inner inside⟩
  | array values =>
      rw [shape, records, mem_listRecords] at member
      obtain ⟨element, inner, found⟩ := member
      obtain ⟨name, inside⟩ := inside_of_records element found
      exact ⟨name, .array inner inside⟩
  | object fields =>
      rw [shape, records, mem_fieldRecords] at member
      obtain ⟨field, inner, found⟩ := member
      obtain ⟨name, inside⟩ := inside_of_records field.2 found
      exact ⟨name, .object inner inside⟩
  | _ =>
      subst shape
      cases member
termination_by sizeOf value
decreasing_by
  all_goals
    subst_vars
    have smaller := List.sizeOf_lt_of_mem inner
    try obtain ⟨key, value⟩ := field
    simp at smaller ⊢
    omega

end Value

section Analyses

open TypeRegistry

/-- Only the definitions matter. -/
theorem TypeRegistry.Constructs.congr {types others : TypeRegistry} {name : String}
    {fields : List (String × Expr)}
    (constructs : types.Constructs name fields)
    (same : others.definitions = types.definitions) :
    others.Constructs name fields := by
  obtain ⟨identity, definitions⟩ := types
  obtain ⟨other, _⟩ := others
  cases same
  exact constructs

/-- Something requires a type that is on a cycle. -/
theorem TypeRegistry.enters {types : TypeRegistry} {id : Nat}
    (cycle : Relation.TransGen types.Requires id id) :
    ∃ other, types.Requires other id := by
  cases cycle with
  | single edge => exact ⟨id, edge⟩
  | tail _ edge => exact ⟨_, edge⟩

/-- Every declaration of an accepted program was analyzed. -/
theorem analyze_declared {program : Program} {id : Nat}
    (accepted : analyze program = [])
    (bound : id < (TypeRegistry.new 0 program).definitions.length) :
    (∀ field ∈ ((TypeRegistry.new 0 program).fields id).value, ∃ ty,
      (TypeRegistry.new 0 program).resolve field.annotated.name = some ty) ∧
      ((TypeRegistry.new 0 program).hasRequiredCycle
        ((TypeRegistry.new 0 program).name (.named id)).value).value = false := by
  obtain ⟨node, member, shape⟩ := new_declared bound
  obtain ⟨_, lists⟩ := Analyzer.covers_statements (program_covered program)
  obtain ⟨inner, point, types, covers⟩ :=
    Analyzer.covers_member lists member
  have declared := Analyzer.covers_unspanned node covers
  rw [shape] at declared
  have checked := Analyzer.covers_typeDeclaration
    (Analyzer.covers_type declared).2 (analyze_unreported accepted _)
    (analyze_unreported accepted _)
  have same : inner.types = TypeRegistry.new 0 program := by
    rw [types, (program.topLevel.hoisted_beside program.statements).same]
    rfl
  rwa [same] at checked

theorem analyze_annotated {program : Program} (identity : Nat)
    (accepted : analyze program = []) :
    (TypeRegistry.new identity program).Annotated := by
  intro id field member
  exact (analyze_declared accepted (lt_of_field member)).1 field member

theorem TypeRegistry.Acyclic.congr {types others : TypeRegistry}
    (acyclic : types.Acyclic)
    (same : others.definitions = types.definitions) : others.Acyclic := by
  obtain ⟨identity, definitions⟩ := types
  obtain ⟨other, _⟩ := others
  cases same
  exact acyclic

theorem analyze_acyclic {program : Program}
    (accepted : analyze program = []) :
    (TypeRegistry.new 0 program).Acyclic := by
  intro id cycle
  obtain ⟨other, field, member, resolved⟩ := enters cycle
  have named := name_of_resolve resolved
  have cyclic : ((TypeRegistry.new 0 program).hasRequiredCycle
      field.annotated.name).value = true :=
    hasRequiredCycle_iff.mpr ⟨id, resolved, cycle⟩
  have free := (analyze_declared accepted (lt_of_resolve resolved)).2
  rw [named, cyclic] at free
  cases free

end Analyses

section Runs

/-- A host hands back only what it has seen: every record of the execution in
a reply is part of a value that the host was given.  The fields of records are
read-only to hosts. -/
def HandsBackRecords (host : Host effects) (identity : Nat) : Prop :=
  ∀ history call reply, host.answer history call = some reply →
    ∀ value ∈ call.2.answered reply, ∀ id name fields,
      (Value.record identity id name fields).Inside value →
      ∃ argument, (argument ∈ call.2.arguments ∨
        ∃ entry ∈ history, argument ∈ entry.1.2.arguments) ∧
        (Value.record identity id name fields).Inside argument

/-- The records of the execution are typed. -/
def Guard.typed (types : TypeRegistry) (host : Host effects)
    (annotated : types.Annotated) : Guard where
  types := types
  constructs := types.Constructs
  records := types.records
  batches := True
  crashes := ∃ history operation, host.answer history operation = none
  short := True
  careful := False
  identity := rfl
  declared := fun _ _ _ _ constructs resolved built =>
    TypeRegistry.typed_of_builds annotated constructs resolved built
  updates := TypeRegistry.typed_updates
  foreign := fun other => absurd (fun _ _ typed => typed.bound) other

theorem HandsBackRecords.known {host : Host effects} {identity : Nat}
    {program : Program}
    {annotated : (TypeRegistry.new identity program).Annotated}
    (handsBack : HandsBackRecords host identity)
    (history : History effects) (call : effects.Call)
    (reply : effects.Reply call)
    (kept : (Guard.typed _ host annotated).ledger.Kept history)
    (offered : (Guard.typed _ host annotated).ledger.call call)
    (answered : host.answer history call = some reply) :
    (Guard.typed _ host annotated).ledger.reply call reply := by
  intro value member record inside
  obtain ⟨name, part⟩ := Value.inside_of_records value inside
  obtain ⟨argument, given, found⟩ := handsBack history call reply answered
    value member record.1 name record.2 part
  have known : argument.Known (TypeRegistry.new identity program).records := by
    rcases given with now | ⟨entry, earlier, given⟩
    · exact offered argument now
    · exact (kept entry earlier).1 argument given
  exact (Value.known_record.mp (known.inside found)).1 rfl

/-- A value that is stored in a state. -/
def Interpreter.Stores (state : Interpreter) (value : Value) : Prop :=
  ∃ binding ∈ state.bindings, binding.value = some value

/-- A state that is shown. -/
def Observation.Sees (state : Interpreter) : Observation → Prop
  | .evaluating _ _ _ shown | .executing _ _ _ shown
  | .storing _ _ _ _ shown | .entering _ _ shown => shown = state
  | .evaluated _ _ _ before _ after | .executed _ _ _ before _ after
  | .returned _ before _ after | .assigned _ _ _ _ _ before _ after
  | .joined _ before _ after => before = state ∨ after = state

/-- A value that is the result of what is shown, or about to be stored. -/
def Observation.Yields (value : Value) : Observation → Prop
  | .evaluating _ _ _ _ | .executing _ _ _ _ | .entering _ _ _
  | .joined _ _ _ _ => False
  | .storing _ _ _ stored _ => stored = value
  | .evaluated _ _ _ _ result _ | .returned _ _ result _
  | .assigned _ _ _ _ _ _ result _ => result = .ok value
  | .executed _ _ _ _ result _ => ∃ env, result = .ok (.return value, env)

/-- A value that is shown, or stored in a state that is. -/
def Observation.Shows (note : Observation) (value : Value) : Prop :=
  note.Yields value ∨ ∃ state, note.Sees state ∧ state.Stores value

theorem Observation.Sound.sees {guard : Guard} {note : Observation}
    {state : Interpreter} (sound : note.Sound guard)
    (sees : note.Sees state) : guard.Stores state := by
  cases note with
  | evaluating point node env shown =>
      cases sees
      exact sound
  | executing point node env shown =>
      cases sees
      exact sound
  | storing point id selectors value shown =>
      cases sees
      exact sound.1
  | entering point body shown =>
      cases sees
      exact sound
  | joined point before result after =>
      rcases sees with rfl | rfl
      · exact sound.1
      · exact sound.2
  | evaluated point node env before result after =>
      rcases sees with rfl | rfl
      · exact sound.1
      · exact sound.2.1
  | executed point node env before result after =>
      rcases sees with rfl | rfl
      · exact sound.1
      · exact sound.2.1
  | returned function before result after =>
      rcases sees with rfl | rfl
      · exact sound.1
      · exact sound.2.1
  | assigned point target env id selectors before result after =>
      rcases sees with rfl | rfl
      · exact sound.1
      · exact sound.2.1

theorem Observation.Sound.yields {guard : Guard} {note : Observation}
    {value : Value} (sound : note.Sound guard) (yields : note.Yields value) :
    value.Known guard.records := by
  cases note with
  | storing point id selectors stored shown =>
      cases yields
      exact sound.2
  | evaluated point node env before result after =>
      exact sound.2.2 value yields
  | executed point node env before result after =>
      obtain ⟨env, returned⟩ := yields
      exact sound.2.2 value env returned
  | returned function before result after =>
      exact (sound.2.2 value yields).1
  | assigned point target env id selectors before result after =>
      exact sound.2.2 value yields
  | _ => cases yields

theorem Observation.Sound.shows {guard : Guard} {note : Observation}
    {value : Value} (sound : note.Sound guard) (shows : note.Shows value) :
    value.Known guard.records := by
  rcases shows with yields | ⟨state, sees, binding, member, same⟩
  · exact sound.yields yields
  · exact ((sound.sees sees).2 binding member value same).known

variable [Formatting] {host : Host effects} {clock identity : Nat}
  {limits : Limits} {program : Program} {choices : List Nat}

/-- The constructors that are evaluated give the fields of their types. -/
theorem run_constructs (accepted : analyze program = [])
    {note : Observation} (member : note ∈
      (runOf host clock identity limits program choices).shared.notes) :
    note.Constructs (TypeRegistry.new identity program).Constructs := by
  have within : (runOf host clock identity limits program choices).Within _ _ :=
    runOf_anyHost True False accepted (.inl trivial) False.elim
  have safe := runOf_scoped host clock identity limits choices
    (analyze_unreported accepted _)
  have known : note.Scoped (analysis 0 program) :=
    safe.shared.notes note member
  have sound := (within.shared.notes note member).2
  unfold Observation.Constructs
  split
  · next point name fields env state =>
      obtain ⟨static, visited, agrees⟩ := known
      have covers := ((analysis_adds 0 program).2 _ visited).2
      have constructs := Analyzer.covers_constructor covers
        (analyze_unreported accepted _)
      have same : state.types = TypeRegistry.new identity program := sound.1
      refine TypeRegistry.Constructs.congr constructs ?_
      rw [← agrees.types, same]
  · trivial

/-- The values that a run of an accepted program shows have typed records. -/
theorem run_typed (accepted : analyze program = [])
    (handsBack : HandsBackRecords host identity) {note : Observation}
    (member : note ∈
      (runOf host clock identity limits program choices).shared.notes)
    {value : Value} (shows : note.Shows value) :
    value.Known (TypeRegistry.new identity program).records := by
  have annotated := analyze_annotated identity accepted
  have honors : (setup host).Honors (Guard.typed _ host annotated).ledger :=
    setup_honors handsBack.known fun history call missing =>
      ⟨history, call, missing⟩
  have within : (runOf host clock identity limits program choices).Within
      (Guard.typed _ host annotated).ledger _ :=
    runOf_within (analyze_tame accepted) rfl trivial (.inl trivial) honors choices
      fun note inside => ⟨False.elim, run_constructs accepted inside⟩
  exact (within.shared.notes note member).2.shows shows

/-- The search for required cycles ends and is exact: it finds a cycle exactly
if the name is that of a declared type on one.  No type of an accepted program
is on a cycle, and under a host that hands back only what it has seen the
records of an execution are nested no deeper than there are types. -/
theorem required_cycles_exact :
    (∀ (types : TypeRegistry) (name : String),
      (∀ start, types.resolve name = some (.named start) →
        ∀ fuel ≥ types.searchFuel, ∃ answer,
          Search.seek types.required start fuel [start] [] = some answer ∧
          types.reaches start fuel [start] [] = pure answer ∧
          types.hasRequiredCycle name = pure answer) ∧
      ((types.hasRequiredCycle name).value = true ↔
        ∃ start < types.definitions.length,
          (types.name (.named start)).value = name ∧
          Relation.TransGen types.Requires start start)) ∧
    ∀ program, analyze program = [] →
      (TypeRegistry.new 0 program).Acyclic ∧
      ∀ (host : Host effects) (clock identity : Nat) (limits : Limits)
        (choices : List Nat), HandsBackRecords host identity →
        ∀ note ∈ (runOf host clock identity limits program
          choices).shared.notes,
        ∀ value, note.Shows value → ∀ id name fields,
          (Value.record identity id name fields).Inside value →
          (Value.record identity id name fields).nesting ≤
            (TypeRegistry.new identity program).definitions.length := by
  refine ⟨fun types name => ⟨?_, ?_⟩, fun program accepted => ⟨?_, ?_⟩⟩
  · intro start resolved fuel enough
    obtain ⟨answer, found, exact_⟩ :=
      TypeRegistry.search_ends (TypeRegistry.lt_of_resolve resolved) enough
    have searched : types.reaches start fuel [start] [] = pure answer := by
      refine Read.eq_pure (TypeRegistry.reaches_of_seek found)
        (TypeRegistry.reaches_failed fun id member => ?_)
      rw [List.mem_singleton.mp member]
      exact TypeRegistry.lt_of_resolve resolved
    refine ⟨answer, found, searched, Read.eq_pure (Bool.eq_iff_iff.mpr ?_)
      (TypeRegistry.hasRequiredCycle_failed name)⟩
    rw [exact_, TypeRegistry.hasRequiredCycle_iff]
    constructor
    · rintro ⟨other, same, cycle⟩
      cases resolved.symm.trans same
      exact cycle
    · intro cycle
      exact ⟨start, resolved, cycle⟩
  · rw [TypeRegistry.hasRequiredCycle_iff]
    constructor
    · rintro ⟨start, resolved, cycle⟩
      exact ⟨start, TypeRegistry.lt_of_resolve resolved,
        TypeRegistry.name_of_resolve resolved, cycle⟩
    · rintro ⟨start, _, named, cycle⟩
      obtain ⟨other, field, _, resolved⟩ := TypeRegistry.enters cycle
      have same := TypeRegistry.name_of_resolve resolved
      rw [← named, same]
      exact ⟨start, resolved, cycle⟩
  · exact analyze_acyclic accepted
  · intro host clock identity limits choices handsBack note member value shows
      id name fields inside
    have known := (run_typed accepted handsBack member shows).inside inside
    have acyclic : (TypeRegistry.new identity program).Acyclic :=
      TypeRegistry.Acyclic.congr (analyze_acyclic accepted) rfl
    have admitted : (TypeRegistry.new identity program).admits (.named id)
        (.record identity id name fields) = true := by
      simp [TypeRegistry.admits, TypeRegistry.new]
    have bounded := Value.nesting_le acyclic _ admitted known List.nodup_nil
      (by simp) (by simp)
    exact bounded

/-- Annotations and records keep their contracts in every run of an accepted
program.  Whatever a state of the parent or of a worker stores in an annotated
binding has its type, and a function returns values of its return type only.
Under a host that hands back only what it has seen, every record of the
execution has exactly the fields of its type, with values of their types. -/
theorem run_keeps_contracts (host : Host effects) (clock identity : Nat)
    (limits : Limits) (program : Program) (choices : List Nat)
    (accepted : analyze program = []) :
    let notes := (runOf host clock identity limits program
      choices).shared.notes
    let types := TypeRegistry.new identity program
    (∀ note ∈ notes, ∀ state, note.Sees state → ∀ binding ∈ state.bindings,
      ∀ ty value, binding.annotated = some ty → binding.value = some value →
        types.admits ty value = true) ∧
    (HandsBackRecords host identity →
      ∀ note ∈ notes, ∀ value, note.Shows value → ∀ id name fields,
        (Value.record identity id name fields).Inside value →
          types.Typed id fields) ∧
    ∀ function before value after,
      Observation.returned function before (.ok value) after ∈ notes →
        ∀ ty, function.returnType = some ty →
          types.admits ty value = true := by
  intro notes types
  have within : (runOf host clock identity limits program choices).Within
      (Guard.anyHost types True False).ledger _ :=
    runOf_anyHost True False accepted (.inl trivial) False.elim
  have sound : ∀ note ∈ notes, note.Sound (Guard.anyHost types True False) :=
    fun note member => (within.shared.notes note member).2
  refine ⟨?_, ?_, ?_⟩
  · intro note member state sees binding inside ty value annotated stored
    have holds := ((sound note member).sees sees).2 binding inside value stored
    exact holds.fits ty annotated
  · intro handsBack note member value shows id name fields inside
    have known := (run_typed accepted handsBack member shows).inside inside
    exact (Value.known_record.mp known).1 rfl
  · intro function before value after member ty annotated
    exact ((sound _ member).2.2 value rfl).2 ty annotated

end Runs

section Example

/-- A program with a record inside of a record. -/
def nestedProgram : Program := ⟨[
  .type "Inner" [⟨"value", { name := "int" }⟩],
  .type "Outer" [⟨"inner", { name := "Inner" }⟩],
  .let "outer" none (.construct "Outer"
    [("inner", .construct "Inner" [("value", .integer 1)])]),
  .expression (.assignment (.property (.property (.identifier "outer")
    "inner") "value") (.integer 2))]⟩

theorem storingHost_handsBackRecords (identity : Nat) :
    HandsBackRecords (storingHost .null) identity := by
  intro history call reply answered value member id name fields inside
  obtain ⟨host, operation⟩ := call
  have empty : value = .null := by
    cases operation <;> cases answered <;>
      simp [HostCall.answered] at member <;> exact member
  subst empty
  cases inside

theorem required_cycles_exact_nested :
    let _formatting : Formatting := plainFormatting
    analyze nestedProgram = [] ∧
      HandsBackRecords (storingHost .null) 1 ∧
      ∀ note ∈ (runOf (storingHost .null) 9 1 {} nestedProgram
        (List.replicate 60 0)).shared.notes,
      ∀ value, note.Shows value → ∀ id name fields,
        (Value.record 1 id name fields).Inside value →
        (Value.record 1 id name fields).nesting ≤ 2 := by
  intro _formatting
  have accepted : analyze nestedProgram = [] := by decide +kernel
  have handsBack := storingHost_handsBackRecords 1
  exact ⟨accepted, handsBack, (required_cycles_exact.2 nestedProgram
    accepted).2 (storingHost .null) 9 1 {} (List.replicate 60 0) handsBack⟩

/-- A program whose function updates a record through its annotated
parameter. -/
def contractProgram : Program := ⟨[
  .type "Pair" [⟨"left", { name := "int" }⟩, ⟨"right", { name := "bool" }⟩],
  .function "flip" [⟨"pair", some { name := "Pair" }⟩]
    (some { name := "Pair" }) (.block [
      .expression (.assignment (.property (.identifier "pair") "right")
        (.boolean true)),
      .return (some (.identifier "pair"))]),
  .let "flipped" (some { name := "Pair" }) (.call (.identifier "flip")
    [.construct "Pair" [("left", .integer 1), ("right", .boolean false)]])]⟩

theorem run_keeps_contracts_pair :
    let _formatting : Formatting := plainFormatting
    let notes := (runOf (storingHost .null) 9 1 {} contractProgram
      (List.replicate 90 0)).shared.notes
    analyze contractProgram = [] ∧ HandsBackRecords (storingHost .null) 1 ∧
      ∀ note ∈ notes, ∀ value, note.Shows value → ∀ id name fields,
        (Value.record 1 id name fields).Inside value →
          (TypeRegistry.new 1 contractProgram).Typed id fields := by
  intro _formatting notes
  have accepted : analyze contractProgram = [] := by decide +kernel
  have handsBack := storingHost_handsBackRecords 1
  exact ⟨accepted, handsBack, (run_keeps_contracts (storingHost .null) 9 1 {}
    contractProgram (List.replicate 90 0) accepted).2.1 handsBack⟩

end Example

end NetLang
