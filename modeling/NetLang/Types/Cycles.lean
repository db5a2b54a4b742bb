import NetLang.Library.Search
import NetLang.Types.Registry

/-!
# Cycles of required fields

A type requires the named types of its fields.  The search of a registry for a
cycle ends, and it finds one exactly if there is one.
-/

namespace NetLang

namespace TypeRegistry

variable {types : TypeRegistry}

/-- A field of the one type is annotated with the name of the other. -/
def Requires (types : TypeRegistry) (id other : Nat) : Prop :=
  ∃ field ∈ (types.fields id).value,
    types.resolve field.annotated.name = some (.named other)

def requiredType (types : TypeRegistry) (field : TypeField) : Option Nat :=
  match types.resolve field.annotated.name with
  | some (.named id) => some id
  | _ => none

def required (types : TypeRegistry) (id : Nat) : List Nat :=
  (types.fields id).value.filterMap types.requiredType

theorem requiredType_eq_some {field : TypeField} {id : Nat} :
    types.requiredType field = some id ↔
      types.resolve field.annotated.name = some (.named id) := by
  unfold requiredType
  cases found : types.resolve field.annotated.name with
  | none => simp
  | some ty => cases ty <;> simp

theorem edge_iff {id other : Nat} :
    Search.Edge types.required id other ↔ types.Requires id other := by
  simp [Search.Edge, required, Requires, requiredType_eq_some]

theorem edge_eq : Search.Edge types.required = types.Requires := by
  funext id other
  exact propext edge_iff

theorem required_lt {id other : Nat} (edge : other ∈ types.required id) :
    other < types.definitions.length := by
  obtain ⟨field, _, found⟩ := edge_iff.mp edge
  exact lt_of_resolve found

theorem reaches_cons {start fuel id : Nat} {pending seen : List Nat} :
    types.reaches start (fuel + 1) (id :: pending) seen =
      if seen.contains id then types.reaches start fuel pending seen
      else types.fields id >>= fun _ =>
        if (types.required id).contains start then pure true
        else types.reaches start fuel
          ((types.required id).reverse ++ pending) (id :: seen) := by
  rfl

/-- The search of a registry is a search along its required fields. -/
theorem reaches_of_seek {start fuel : Nat} {pending seen : List Nat}
    {answer : Bool}
    (found : Search.seek types.required start fuel pending seen =
      some answer) :
    (types.reaches start fuel pending seen).value = answer := by
  induction fuel generalizing pending seen with
  | zero => cases found
  | succ fuel induction =>
      cases pending with
      | nil =>
          cases found
          rfl
      | cons id pending =>
          rw [Search.seek] at found
          rw [reaches_cons]
          simp only [List.contains_iff_mem]
          split at found
          case isTrue entered =>
            rw [if_pos entered]
            exact induction found
          case isFalse fresh =>
            rw [if_neg fresh, Read.value_bind]
            split at found
            case isTrue edge =>
              rw [if_pos edge]
              exact Option.some.inj found
            case isFalse missed =>
              rw [if_neg missed]
              exact induction found

theorem work_lt_searchFuel {start : Nat}
    (known : start < types.definitions.length) :
    Search.work types.required (List.range types.definitions.length)
      [start] [] < types.searchFuel := by
  have fields : types.definitions.map (fun definition =>
      definition.2.length + 1) =
        (List.range types.definitions.length).map fun id =>
          (types.fields id).value.length + 1 := by
    apply List.ext_getElem
    · simp
    · intro id inside _
      rw [List.length_map] at inside
      simp [TypeRegistry.fields, definition, inside]
  have bounded : ∀ ids : List Nat,
      (ids.map fun id => (types.required id).length).sum + ids.length ≤
        (ids.map fun id => (types.fields id).value.length + 1).sum := by
    intro ids
    induction ids with
    | nil => simp
    | cons id ids induction =>
        have shorter : (types.required id).length ≤
            (types.fields id).value.length :=
          List.length_filterMap_le _ _
        simp only [List.map_cons, List.sum_cons, List.length_cons]
        omega
  have total := bounded (List.range types.definitions.length)
  rw [List.length_range] at total
  rw [searchFuel, fields, Search.work]
  simp only [List.not_mem_nil, not_false_eq_true, decide_true,
    List.filter_true, List.length_singleton]
  omega

/-- The search for a declared type ends, with as much fuel as there is work
or with more. -/
theorem search_ends {start fuel : Nat}
    (known : start < types.definitions.length)
    (enough : types.searchFuel ≤ fuel) :
    ∃ answer, Search.seek types.required start fuel [start] [] =
      some answer ∧
      (answer = true ↔ Relation.TransGen types.Requires start start) := by
  obtain ⟨answer, found⟩ : ∃ answer,
      Search.seek types.required start fuel [start] [] = some answer := by
    have distinct : (List.range types.definitions.length).Nodup :=
      List.nodup_range
    apply Search.seek_ends distinct
    · intro id other edge
      exact List.mem_range.mpr (required_lt edge)
    · simpa using known
    · exact Nat.lt_of_lt_of_le (work_lt_searchFuel known) enough
  have decided := Search.seek_exact Search.Explored.initial found
  rw [edge_eq] at decided
  exact ⟨answer, found, decided⟩

theorem hasRequiredCycle_iff {name : String} :
    (types.hasRequiredCycle name).value = true ↔
      ∃ start, types.resolve name = some (.named start) ∧
        Relation.TransGen types.Requires start start := by
  unfold hasRequiredCycle
  cases resolved : types.resolve name with
  | none => simp
  | some ty =>
      cases ty with
      | primitive primitive => simp
      | named start =>
          obtain ⟨answer, found, cycle⟩ :=
            search_ends (lt_of_resolve resolved) (Nat.le_refl _)
          simp [reaches_of_seek found, cycle]

/-- Only types of fields are searched, so no read is out of bounds. -/
theorem reaches_failed {start fuel : Nat} {pending seen : List Nat}
    (inside : ∀ id ∈ pending, id < types.definitions.length) :
    (types.reaches start fuel pending seen).failed = false := by
  induction fuel generalizing pending seen with
  | zero => rfl
  | succ fuel induction =>
      cases pending with
      | nil => rfl
      | cons id pending =>
          have later : ∀ id ∈ pending, id < types.definitions.length :=
            fun id member => inside id (List.mem_cons_of_mem _ member)
          rw [reaches_cons]
          split
          · exact induction later
          · rw [Read.failed_bind, fields_failed (inside id List.mem_cons_self),
              Bool.false_or]
            split
            · rfl
            · refine induction fun other member => ?_
              rcases List.mem_append.mp member with next | old
              · exact required_lt (List.mem_reverse.mp next)
              · exact later other old

theorem hasRequiredCycle_failed (name : String) :
    (types.hasRequiredCycle name).failed = false := by
  unfold hasRequiredCycle
  cases resolved : types.resolve name with
  | none => rfl
  | some ty =>
      cases ty with
      | primitive primitive => rfl
      | named start =>
          refine reaches_failed fun id member => ?_
          rw [List.mem_singleton.mp member]
          exact lt_of_resolve resolved

end TypeRegistry

end NetLang
