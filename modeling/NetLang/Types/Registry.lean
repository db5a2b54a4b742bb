import NetLang.Syntax.Ast

/-!
# Named types

Type names are shared by a whole program.  Definitions are hoisted only at
top level, and the first definition of a name wins.
-/

namespace NetLang

inductive ResolvedType where
  | primitive (primitive : PrimitiveType)
  | named (id : Nat)
deriving DecidableEq, Repr

/-- What has been read by an index.  A read out of bounds has failed: there
the program panics, and the value is of no use. -/
structure Read (α : Type) where
  value : α
  failed : Bool
deriving Repr

namespace Read

variable {α β : Type}

protected def pure (value : α) : Read α :=
  ⟨value, false⟩

protected def bind (read : Read α) (f : α → Read β) : Read β :=
  ⟨(f read.value).value, read.failed || (f read.value).failed⟩

instance : Monad Read where
  pure := Read.pure
  bind := Read.bind

@[simp] theorem value_pure (value : α) : (pure value : Read α).value = value :=
  rfl

@[simp] theorem failed_pure (value : α) :
    (pure value : Read α).failed = false :=
  rfl

@[simp] theorem value_bind (read : Read α) (f : α → Read β) :
    (read >>= f).value = (f read.value).value :=
  rfl

@[simp] theorem failed_bind (read : Read α) (f : α → Read β) :
    (read >>= f).failed = (read.failed || (f read.value).failed) :=
  rfl

theorem eq_pure {read : Read α} {value : α} (same : read.value = value)
    (succeeds : read.failed = false) : read = pure value := by
  cases read
  cases same
  cases succeeds
  rfl

end Read

/-- The definitions of one program, under the identity of one execution. -/
structure TypeRegistry where
  identity : Nat
  definitions : List (String × List TypeField)
deriving Repr

namespace TypeRegistry

/-- Definitions in source order, without the later ones of a known name. -/
def collect :
    List Stmt → List (String × List TypeField) →
      List (String × List TypeField)
  | [], definitions => definitions
  | statement :: rest, definitions =>
      match statement.unspanned with
      | .type name fields =>
          if definitions.any (fun definition => definition.1 == name) then
            collect rest definitions
          else
            collect rest (definitions ++ [(name, fields)])
      | _ => collect rest definitions

def new (identity : Nat) (program : Program) : TypeRegistry :=
  ⟨identity, collect program.statements []⟩

/-- The position of the definition of a name. -/
def position (definitions : List (String × List TypeField))
    (name : String) : Option Nat :=
  definitions.findIdx? (fun definition => definition.1 == name)

/-- A primitive name shadows a definition. -/
def resolve (types : TypeRegistry) (name : String) : Option ResolvedType :=
  match PrimitiveType.fromName name with
  | some primitive => some (.primitive primitive)
  | none => (position types.definitions name).map .named

def definition (types : TypeRegistry) (id : Nat) :
    Read (String × List TypeField) :=
  match types.definitions[id]? with
  | some definition => ⟨definition, false⟩
  | none => ⟨("", []), true⟩

def fields (types : TypeRegistry) (id : Nat) : Read (List TypeField) := do
  let definition ← types.definition id
  pure definition.2

def name (types : TypeRegistry) : ResolvedType → Read String
  | .primitive primitive => pure primitive.name
  | .named id => do
      let definition ← types.definition id
      pure definition.1

/-- A field of a type that has a definition. -/
def field? (types : TypeRegistry) (id : Nat) (name : String) :
    Option TypeField :=
  (types.fields id).value.find? (fun field => field.name == name)

/-- A type that is primitive or has a definition. -/
def Defines (types : TypeRegistry) : ResolvedType → Prop
  | .primitive _ => True
  | .named id => id < types.definitions.length

/-- Depth-first search for a path of required fields from the pending types
back to `start`.  Every definition is entered at most once, so the search
needs one unit of fuel for each definition and for each of its fields. -/
def reaches (types : TypeRegistry) (start : Nat) :
    Nat → List Nat → List Nat → Read Bool
  | 0, _, _ => pure false
  | _, [], _ => pure false
  | fuel + 1, id :: pending, seen =>
      if seen.contains id then reaches types start fuel pending seen
      else do
        let fields ← types.fields id
        let next := fields.filterMap fun field =>
          match types.resolve field.annotated.name with
          | some (.named next) => some next
          | _ => none
        if next.contains start then pure true
        else reaches types start fuel (next.reverse ++ pending) (id :: seen)

def searchFuel (types : TypeRegistry) : Nat :=
  (types.definitions.map fun definition => definition.2.length + 1).sum + 1

def hasRequiredCycle (types : TypeRegistry) (name : String) : Read Bool :=
  match types.resolve name with
  | some (.named start) => reaches types start types.searchFuel [start] []
  | _ => pure false

theorem position_lt {definitions : List (String × List TypeField)}
    {name : String} {id : Nat} (found : position definitions name = some id) :
    id < definitions.length :=
  (List.findIdx?_eq_some_iff_findIdx_eq.mp found).1

/-- A resolved name is the name of its type. -/
theorem name_of_resolve {types : TypeRegistry} {name : String}
    {ty : ResolvedType} (found : types.resolve name = some ty) :
    (types.name ty).value = name := by
  unfold resolve at found
  split at found
  · next primitive isPrimitive =>
      cases found
      exact PrimitiveType.name_of_fromName isPrimitive
  · obtain ⟨id, atId, rfl⟩ := Option.map_eq_some_iff.mp found
    obtain ⟨bound, same, _⟩ := List.findIdx?_eq_some_iff_getElem.mp atId
    have equal : types.definitions[id].1 = name := by simpa using same
    simp [TypeRegistry.name, definition, List.getElem?_eq_getElem bound, equal]

theorem lt_of_resolve {types : TypeRegistry} {name : String} {id : Nat}
    (found : types.resolve name = some (.named id)) :
    id < types.definitions.length := by
  unfold resolve at found
  split at found
  · cases found
  · obtain ⟨position, atPosition, same⟩ := Option.map_eq_some_iff.mp found
    cases same
    exact position_lt atPosition

theorem defines_of_resolve {types : TypeRegistry} {name : String}
    {ty : ResolvedType} (found : types.resolve name = some ty) :
    types.Defines ty := by
  cases ty with
  | primitive primitive => trivial
  | named id => exact lt_of_resolve found

section Defined

variable {types : TypeRegistry} {id : Nat}
  (inside : id < types.definitions.length)
include inside

theorem definition_failed : (types.definition id).failed = false := by
  rw [definition, List.getElem?_eq_getElem inside]

theorem fields_failed : (types.fields id).failed = false := by
  rw [fields, Read.failed_bind, definition_failed inside]
  rfl

end Defined

theorem name_failed {types : TypeRegistry} {ty : ResolvedType}
    (defined : types.Defines ty) : (types.name ty).failed = false := by
  cases ty with
  | primitive primitive => rfl
  | named id =>
      rw [name, Read.failed_bind, definition_failed defined]
      rfl

end TypeRegistry

end NetLang
