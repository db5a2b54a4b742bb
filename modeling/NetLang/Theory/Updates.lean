import NetLang.Theory.Iterations

/-!
# Updates under a path

Reading after a nested update gives the new value under its path and the old
result under every path apart from it.  An assignment reads its root after its
right-hand side was evaluated, so the update is made to what the right-hand
side left there.
-/

namespace NetLang

open Interp

namespace Selector

/-- `value.key` and `value["key"]` select the same. -/
def canonical : Selector → Selector
  | .property key => .index (.string key)
  | .index value => .index value

theorem canonical_of_key {selector : Selector} {key : String}
    (named : selector.key? = some key) :
    selector.canonical = .index (.string key) := by
  cases selector with
  | property name =>
      cases named
      rfl
  | index value =>
      cases value with
      | string text =>
          cases named
          rfl
      | _ => cases named

theorem canonical_of_position {selector : Selector} {position : Int64}
    (indexed : selector.position? = some position) :
    selector.canonical = .index (.integer position) := by
  cases selector with
  | property name => cases indexed
  | index value =>
      cases value with
      | integer number =>
          cases indexed
          rfl
      | _ => cases indexed

theorem key?_canonical (selector : Selector) :
    selector.canonical.key? = selector.key? := by
  cases selector <;> rfl

theorem position?_canonical (selector : Selector) :
    selector.canonical.position? = selector.position? := by
  cases selector <;> rfl

/-- The path begins with another one. -/
def Extends (path front : List Selector) : Prop :=
  front.map canonical <+: path.map canonical

/-- Neither of two paths begins with the other. -/
def Apart (first second : List Selector) : Prop :=
  ¬Extends first second ∧ ¬Extends second first

end Selector

namespace Value

open Selector

/-- Follow `get` along a path. -/
def follow (value : Value) : List Selector → Except ErrorKind Value
  | [] => .ok value
  | selector :: rest =>
      match value.get selector with
      | .ok child => child.follow rest
      | .error kind => .error kind

theorem follow_cons_ok {value child : Value} {selector : Selector}
    (rest : List Selector) (found : value.get selector = .ok child) :
    value.follow (selector :: rest) = child.follow rest := by
  simp [follow, found]

theorem follow_cons_congr {value other : Value} {selector : Selector}
    (rest : List Selector) (same : value.get selector = other.get selector) :
    value.follow (selector :: rest) = other.follow (selector :: rest) := by
  simp [follow, same]

theorem get_canonical (value : Value) (selector : Selector) :
    value.get selector.canonical = value.get selector := by
  unfold get
  rw [key?_canonical, position?_canonical]

theorem get_congr (value : Value) {first second : Selector}
    (same : first.canonical = second.canonical) :
    value.get first = value.get second := by
  rw [← get_canonical value first, same, get_canonical]

theorem get_record {identity typeId : Nat} {name key : String}
    {fields : SortedMap Value} {selector : Selector}
    (named : selector.key? = some key) :
    (record identity typeId name fields).get selector =
      match SortedMap.get? fields key with
      | some field => .ok field
      | none => .error (.recordField name key) := by
  cases found : SortedMap.get? fields key with
  | none => simp [get, named, found]
  | some field => simp [get, named, found]

theorem get_object {key : String} {fields : SortedMap Value}
    {selector : Selector} (named : selector.key? = some key) :
    (object fields).get selector =
      match SortedMap.get? fields key with
      | some field => .ok field
      | none => .error (.objectField key) := by
  cases found : SortedMap.get? fields key with
  | none => simp [get, named, found]
  | some field => simp [get, named, found]

theorem get_array {values : List Value} {selector : Selector}
    {position : Int64} (indexed : selector.position? = some position) :
    (array values).get selector =
      if position.toInt < 0 then .error .arrayIndexNegative
      else
        match values[position.toInt.toNat]? with
        | some element => .ok element
        | none => .error
            (.arrayIndexBounds position.toInt.toNat values.length) := by
  by_cases negative : position.toInt < 0
  · simp [get, indexed, negative]
  · cases found : values[position.toInt.toNat]? with
    | none => simp only [get, indexed, negative, found, if_false]
    | some element => simp only [get, indexed, negative, found, if_false]

/-- A record stays a record of its type, with the same fields. -/
def KeepsRecord (before after : Value) : Prop :=
  ∀ identity typeId name fields, before = record identity typeId name fields →
    ∃ fields', after = record identity typeId name fields' ∧
      ∀ key, SortedMap.contains fields' key = SortedMap.contains fields key

/-- What an update under one selector does: it replaces the child there. -/
structure Replaces (before after : Value) (selector : Selector)
    (child : Value) : Prop where
  here : after.get selector = .ok child
  elsewhere : ∀ other : Selector, other.canonical ≠ selector.canonical →
    after.get other = before.get other
  keeps : KeepsRecord before after

theorem contains_insert {fields : SortedMap Value} {key : String}
    {old : Value} (found : SortedMap.get? fields key = some old)
    (child : Value) (other : String) :
    SortedMap.contains (SortedMap.insert fields key child) other =
      SortedMap.contains fields other := by
  rw [SortedMap.contains, SortedMap.contains, SortedMap.get?_insert]
  split
  · next same => simp [same, found]
  · rfl

theorem record_replaces {identity typeId : Nat} {name key : String}
    {fields : SortedMap Value} {selector : Selector} {old : Value}
    (named : selector.key? = some key)
    (found : SortedMap.get? fields key = some old) (child : Value) :
    Replaces (record identity typeId name fields)
      (record identity typeId name (SortedMap.insert fields key child))
      selector child := by
  constructor
  · rw [get_record named, SortedMap.get?_insert_self]
  · intro other different
    cases named' : other.key? with
    | none => simp only [get, named', typeName]
    | some key' =>
        have distinct : key' ≠ key := by
          intro same
          apply different
          rw [canonical_of_key named, canonical_of_key named', same]
        rw [get_record named', get_record named', SortedMap.get?_insert,
          if_neg distinct]
  · intro _ _ _ _ same
    cases same
    exact ⟨_, rfl, contains_insert found child⟩

theorem object_replaces {key : String} {fields : SortedMap Value}
    {selector : Selector} (named : selector.key? = some key)
    (child : Value) :
    Replaces (object fields) (object (SortedMap.insert fields key child))
      selector child := by
  constructor
  · rw [get_object named, SortedMap.get?_insert_self]
  · intro other different
    cases named' : other.key? with
    | none => simp only [get, named', typeName]
    | some key' =>
        have distinct : key' ≠ key := by
          intro same
          apply different
          rw [canonical_of_key named, canonical_of_key named', same]
        rw [get_object named', get_object named', SortedMap.get?_insert,
          if_neg distinct]
  · intro _ _ _ _ same
    cases same

theorem array_replaces {values : List Value} {selector : Selector}
    {position : Int64} {old : Value}
    (indexed : selector.position? = some position)
    (nonneg : ¬position.toInt < 0)
    (found : values[position.toInt.toNat]? = some old) (child : Value) :
    Replaces (array values)
      (array (values.set position.toInt.toNat child)) selector child := by
  have inside := (List.getElem?_eq_some_iff.mp found).1
  constructor
  · rw [get_array indexed, if_neg nonneg, List.getElem?_set_self inside]
  · intro other different
    cases indexed' : other.position? with
    | none => simp only [get, indexed', typeName]
    | some position' =>
        rw [get_array indexed', get_array indexed', List.length_set]
        by_cases negative : position'.toInt < 0
        · rw [if_pos negative, if_pos negative]
        · have distinct : position.toInt.toNat ≠ position'.toInt.toNat := by
            intro same
            apply different
            have equal : position'.toInt = position.toInt := by omega
            rw [canonical_of_position indexed, canonical_of_position indexed',
              Int64.toInt_inj.mp equal]
          rw [List.getElem?_set_ne distinct]
  · intro _ _ _ _ same
    cases same

/-- What is written under a selector: the value itself, or the child that was
there, updated. -/
def Written (types : TypeRegistry) (root : Value) (selector : Selector)
    (rest : List Selector) (value child : Value) : Prop :=
  rest = [] ∧ child = value ∨
    ∃ old, root.get selector = .ok old ∧
      old.set types rest value = .ok child

/-- An update replaces one child. -/
theorem set_cons {types : TypeRegistry} {root value after : Value}
    {selector : Selector} {rest : List Selector}
    (done : root.set types (selector :: rest) value = .ok after) :
    ∃ child, Replaces root after selector child ∧
      Written types root selector rest value child := by
  unfold set at done
  split at done
  · next identity typeId name fields _ key named =>
      split at done
      · cases done
      split at done
      · cases done
      split at done
      · cases done
      extract_lets expected at done
      split at done
      · cases done
      split at done
      · cases done
      next old found =>
      split at done
      · cases done
      next child updated =>
      cases done
      refine ⟨child, record_replaces named found child, .inr ⟨old, ?_, updated⟩⟩
      rw [get_record named, found]
  · next fields _ key named =>
      split at done
      · next last =>
          cases done
          exact ⟨value, object_replaces named value,
            .inl ⟨List.isEmpty_iff.mp last, rfl⟩⟩
      split at done
      · cases done
      next old found =>
      split at done
      · cases done
      next child updated =>
      cases done
      refine ⟨child, object_replaces named child, .inr ⟨old, ?_, updated⟩⟩
      rw [get_object named, found]
  · next values _ position indexed =>
      split at done
      · cases done
      next nonneg =>
      split at done
      · cases done
      next old found =>
      split at done
      · cases done
      next child updated =>
      cases done
      refine ⟨child, array_replaces indexed nonneg found child,
        .inr ⟨old, ?_, updated⟩⟩
      rw [get_array indexed, if_neg nonneg, found]
  · cases done

theorem set_nil {types : TypeRegistry} {root value after : Value}
    (done : root.set types [] value = .ok after) : after = value := by
  unfold set at done
  cases done
  rfl

variable {types : TypeRegistry} {root value after : Value}

/-- The new value is found under its path. -/
theorem follow_set {path : List Selector}
    (done : root.set types path value = .ok after) :
    after.follow path = .ok value := by
  induction path generalizing root after with
  | nil => rw [set_nil done, follow]
  | cons selector rest induction =>
      obtain ⟨child, replaces, ⟨rfl, rfl⟩ | ⟨old, _, updated⟩⟩ :=
        set_cons done
      · rw [follow_cons_ok [] replaces.here, follow]
      · rw [follow_cons_ok rest replaces.here, induction updated]

/-- Nothing else is changed. -/
theorem follow_set_apart {path other : List Selector}
    (done : root.set types path value = .ok after)
    (apart : Apart path other) : after.follow other = root.follow other := by
  induction path generalizing root after other with
  | nil => exact absurd List.nil_prefix apart.2
  | cons selector rest induction =>
      cases other with
      | nil => exact absurd List.nil_prefix apart.1
      | cons first later =>
          obtain ⟨child, replaces, written⟩ := set_cons done
          by_cases same : first.canonical = selector.canonical
          · have inner : Apart rest later := by
              simpa [Apart, Extends, List.cons_prefix_cons, same] using apart
            obtain ⟨rfl, _⟩ | ⟨old, found, updated⟩ := written
            · exact absurd List.nil_prefix inner.2
            · rw [get_congr root same.symm] at found
              rw [follow_cons_ok later found, follow_cons_ok later
                ((get_congr after same).trans replaces.here),
                induction updated inner]
          · exact follow_cons_congr later (replaces.elsewhere first same)

/-- The records on the way to the new value, and those apart from it, keep
their types and their fields. -/
theorem keepsRecord_set {path other : List Selector} {before : Value}
    (done : root.set types path value = .ok after)
    (outside : ¬Extends other path) (found : root.follow other = .ok before) :
    ∃ child, after.follow other = .ok child ∧ KeepsRecord before child := by
  induction path generalizing root after other with
  | nil => exact absurd List.nil_prefix outside
  | cons selector rest induction =>
      obtain ⟨child, replaces, written⟩ := set_cons done
      cases other with
      | nil =>
          cases found
          exact ⟨after, rfl, replaces.keeps⟩
      | cons first later =>
          by_cases same : first.canonical = selector.canonical
          · have inner : ¬Extends later rest := by
              simpa [Extends, List.cons_prefix_cons, same] using outside
            obtain ⟨rfl, _⟩ | ⟨old, there, updated⟩ := written
            · exact absurd List.nil_prefix inner
            · rw [get_congr root same.symm] at there
              rw [follow_cons_ok later there] at found
              rw [follow_cons_ok later
                ((get_congr after same).trans replaces.here)]
              exact induction updated inner found
          · have unchanged := follow_cons_congr later
              (replaces.elsewhere first same)
            refine ⟨before, unchanged.trans found, ?_⟩
            exact fun _ _ _ fields same => ⟨fields, same, fun _ => rfl⟩

end Value

namespace Interp

variable {α : Type} {state after : Interpreter}
  {events : List (Event effects)}

theorem path_reported
    {report : Interpreter → Result α → Interpreter → Observation}
    {comp : Interp α} {result : Result α}
    (path : (reported report comp).Path state events result after) :
    ∃ front, comp.Path state front result after := by
  obtain ⟨front, back, ⟨inner, middle⟩, rfl, first, rest⟩ :=
    Comp.path_bind.mp path
  obtain ⟨_, _, rfl, last⟩ := Comp.path_act.mp rest
  obtain ⟨rfl, same⟩ := Comp.path_ret.mp last
  cases same
  exact ⟨front, first⟩

theorem path_relocate {locate : Option Span → Option Span} {comp : Interp α}
    {value : α}
    (path : (relocate locate comp).Path state events (.ok value) after) :
    comp.Path state events (.ok value) after := by
  obtain ⟨front, back, ⟨inner, middle⟩, rfl, first, rest⟩ :=
    Comp.path_bind.mp path
  cases inner with
  | error reason =>
      cases reason with
      | _ =>
          obtain ⟨_, wrong⟩ := Comp.path_ret.mp rest
          cases wrong
  | ok found =>
      obtain ⟨rfl, same⟩ := Comp.path_ret.mp rest
      cases same
      rw [List.append_nil]
      exact first

theorem path_ite {condition : Prop} [Decidable condition]
    {yes no : Interp α} {result : Result α}
    (path : Path (if condition then yes else no) state events result after) :
    condition ∧ yes.Path state events result after ∨
      ¬condition ∧ no.Path state events result after := by
  by_cases holds : condition
  · rw [if_pos holds] at path
    exact .inl ⟨holds, path⟩
  · rw [if_neg holds] at path
    exact .inr ⟨holds, path⟩

theorem path_attempt {point : Point} {outcome : Except Fault α} {value : α}
    (path : (attempt point outcome).Path state events (.ok value) after) :
    after = state ∧ outcome = .ok value := by
  rcases outcome with ((kind | _) | found)
  · obtain ⟨_, wrong⟩ := Comp.path_ret.mp path
    cases wrong
  · obtain ⟨_, wrong⟩ := Comp.path_ret.mp path
    cases wrong
  · obtain ⟨_, same⟩ := Comp.path_ret.mp path
    cases same
    exact ⟨rfl, rfl⟩

theorem path_binding {id : Nat} {found : Binding}
    (path : (binding id).Path state events (.ok found) after) :
    after = state ∧ state.bindings[id]? = some found := by
  unfold Path binding at path
  cases there : state.bindings[id]? with
  | none =>
      simp only [there] at path
      obtain ⟨_, wrong⟩ := Comp.path_ret.mp path
      cases wrong
  | some held =>
      simp only [there] at path
      obtain ⟨_, same⟩ := Comp.path_ret.mp path
      cases same
      exact ⟨rfl, rfl⟩

theorem path_read {point : Point} {id : Nat} {value : Value}
    (path : (read point id).Path state events (.ok value) after) :
    after = state ∧ ∃ found, state.bindings[id]? = some found ∧
      found.value = some value := by
  obtain ⟨front, back, found, middle, rfl, first, rest⟩ |
    ⟨_, wrong, _⟩ := path_bind.mp path
  · obtain ⟨rfl, there⟩ := path_binding first
    cases held : found.value with
    | none =>
        simp only [held] at rest
        obtain ⟨_, wrong⟩ := Comp.path_ret.mp rest
        cases wrong
    | some value' =>
        simp only [held] at rest
        obtain ⟨_, same, rfl⟩ := path_pure.mp rest
        cases same
        exact ⟨rfl, found, there, held⟩
  · cases wrong

theorem path_checkBinding {point : Point} {id : Nat} {value : Value}
    (path : (checkBinding point id value).Path state events (.ok ()) after) :
    after = state ∧ ∃ found, state.bindings[id]? = some found := by
  obtain ⟨front, back, found, middle, rfl, first, rest⟩ |
    ⟨_, wrong, _⟩ := path_bind.mp path
  · obtain ⟨rfl, there⟩ := path_binding first
    exact ⟨(path_attempt rest).1, found, there⟩
  · cases wrong

theorem path_checkAssignable {point : Point} {id : Nat}
    (path : (checkAssignable point id).Path state events (.ok ()) after) :
    after = state := by
  obtain ⟨front, back, found, middle, rfl, first, rest⟩ |
    ⟨_, wrong, _⟩ := path_bind.mp path
  · obtain ⟨rfl, _⟩ := path_binding first
    obtain ⟨_, failed⟩ | ⟨_, passed⟩ := path_ite rest
    · obtain ⟨_, wrong⟩ := Comp.path_ret.mp failed
      cases wrong
    · by_cases captured : id < middle.capturedBindings
      · have failed : (fail point .capturedAssignment : Interp Unit).Path
            middle back (.ok ()) after := by
          simpa [Path, captured] using passed
        obtain ⟨_, wrong⟩ := Comp.path_ret.mp failed
        cases wrong
      · have done : back = [] ∧ after = middle := by
          simpa [Path, captured] using passed
        exact done.2
  · cases wrong

theorem path_write {id : Nat} {value : Value}
    (path : (write id value).Path state events (.ok ()) after) :
    after = written state id value := by
  unfold Path write at path
  split at path
  · obtain ⟨_, same⟩ := Comp.path_ret.mp path
    cases same
    rfl
  · obtain ⟨_, wrong⟩ := Comp.path_ret.mp path
    cases wrong

theorem path_observe {note : Interpreter → Observation}
    (path : (observe note).Path state events (.ok ()) after) :
    events = [⟨.observe (note state), ()⟩] ∧ after = state := by
  cases path with
  | act rest =>
      obtain ⟨rfl, same⟩ := Comp.path_ret.mp rest
      cases same
      exact ⟨rfl, rfl⟩

/-- A store writes the value, or the root that its slot holds by then,
updated. -/
theorem path_store {point : Point} {id : Nat} {selectors : List Selector}
    {value : Value}
    (path : (store point id selectors value).Path state events (.ok ())
      after) :
    ∃ found updated, state.bindings[id]? = some found ∧
      after = written state id updated ∧
      (selectors = [] ∧ updated = value ∨
        ∃ root, found.value = some root ∧
          root.set state.types selectors value = .ok updated) := by
  have writes {front : List (Event effects)} {middle : Interpreter}
      {updated : Value}
      (rest : Path (do checkBinding point id updated; write id updated)
        middle front (.ok ()) after) :
      after = written middle id updated ∧
        ∃ found, middle.bindings[id]? = some found := by
    obtain ⟨_, _, _, _, rfl, checked, last⟩ | ⟨_, wrong, _⟩ :=
      path_bind.mp rest
    · obtain ⟨rfl, found⟩ := path_checkBinding checked
      exact ⟨path_write last, found⟩
    · cases wrong
  unfold store at path
  split at path
  · next empty =>
      obtain ⟨same, found, there⟩ := writes path
      exact ⟨found, value, there, same, .inl ⟨List.isEmpty_iff.mp empty, rfl⟩⟩
  obtain ⟨_, _, root, _, rfl, first, rest⟩ | ⟨_, wrong, _⟩ :=
    path_bind.mp path
  · obtain ⟨rfl, found, there, held⟩ := path_read first
    obtain ⟨_, _, types', _, rfl, typed, last⟩ | ⟨_, wrong, _⟩ :=
      path_bind.mp rest
    · obtain ⟨_, same⟩ := Comp.path_ret.mp typed
      cases same
      obtain ⟨_, _, updated, _, rfl, attempted, stored⟩ | ⟨_, wrong, _⟩ :=
        path_bind.mp last
      · obtain ⟨rfl, done⟩ := path_attempt attempted
        exact ⟨found, updated, there, (writes stored).1,
          .inr ⟨root, held, done⟩⟩
      · cases wrong
    · cases wrong
  · cases wrong

/-- The target of an assignment is resolved before its value is evaluated,
and its root is read afterwards. -/
theorem path_assignment [Formatting] {self : Evaluator} {point : Point}
    {env : Environment} {left right : Expr} {value : Value}
    (path : (expressionInner self point env (.assignment left right)).Path
      state events (.ok value) after) :
    ∃ id selectors before evaluated front middle last,
      (target self env (0 :: point) left).Path state front
        (.ok (id, selectors)) before ∧
      (self.expression (1 :: point) right env).Path before middle (.ok value)
        evaluated ∧
      (store point id selectors value).Path evaluated last (.ok ()) after := by
  obtain ⟨front, _, ⟨id, selectors⟩, before, rfl, targeted, rest⟩ |
    ⟨_, wrong, _⟩ := path_bind.mp path
  · obtain ⟨inner, assigned⟩ := path_reported rest
    obtain ⟨_, _, _, _, rfl, checked, rest⟩ | ⟨_, wrong, _⟩ :=
      path_bind.mp assigned
    · cases path_checkAssignable checked
      obtain ⟨middle, _, value', evaluated, rfl, evaluates, rest⟩ |
        ⟨_, wrong, _⟩ := path_bind.mp rest
      · obtain ⟨_, _, _, evaluated, rfl, shown, remaining⟩ | ⟨_, wrong, _⟩ :=
          path_bind.mp rest
        · obtain ⟨rfl, rfl⟩ := path_observe shown
          obtain ⟨last, _, _, _, rfl, stored, done⟩ | ⟨_, wrong, _⟩ :=
            path_bind.mp remaining
          · obtain ⟨_, same, rfl⟩ := path_pure.mp done
            cases same
            exact ⟨id, selectors, before, evaluated, front, middle, last,
              targeted, evaluates, stored⟩
          · cases wrong
        · cases wrong
      · cases wrong
    · cases wrong
  · cases wrong

end Interp

open Selector Value

/-- A nested update is seen under its path and nowhere else, and an
assignment keeps what its right-hand side did to the rest of its root. -/
theorem updates_lawful [Formatting] :
    (∀ (types : TypeRegistry) (root value after : Value)
        (path : List Selector), root.set types path value = .ok after →
      after.follow path = .ok value ∧
      (∀ other, Apart path other → after.follow other = root.follow other) ∧
      (∀ other before, ¬Extends other path → root.follow other = .ok before →
        ∃ child, after.follow other = .ok child ∧
          KeepsRecord before child)) ∧
    (∀ (self : Evaluator) (point : Point) (env : Environment)
        (left right : Expr) (state after : Interpreter)
        (events : List (Event effects)) (value : Value),
      (expressionInner self point env (.assignment left right)).Path state
        events (.ok value) after →
      ∃ id selectors before evaluated front middle,
        (target self env (0 :: point) left).Path state front
          (.ok (id, selectors)) before ∧
        (self.expression (1 :: point) right env).Path before middle
          (.ok value) evaluated ∧
        ∃ found updated, evaluated.bindings[id]? = some found ∧
          after.bindings[id]? = some { found with value := some updated } ∧
          updated.follow selectors = .ok value ∧
          ∀ other, Apart selectors other → ∃ root, found.value = some root ∧
            updated.follow other = root.follow other) := by
  constructor
  · intro types root value after path done
    exact ⟨follow_set done, fun _ => follow_set_apart done,
      fun _ _ => keepsRecord_set done⟩
  · intro self point env left right state after events value path
    obtain ⟨id, selectors, before, evaluated, front, middle, last, targeted,
      evaluates, stored⟩ := path_assignment path
    obtain ⟨found, updated, there, rfl, laws⟩ := path_store stored
    refine ⟨id, selectors, before, evaluated, front, middle, targeted,
      evaluates, found, updated, there, ?_, ?_⟩
    · simp [written, there]
    · obtain ⟨rfl, rfl⟩ | ⟨root, held, done⟩ := laws
      · exact ⟨rfl, fun other apart => absurd List.nil_prefix apart.2⟩
      · exact ⟨follow_set done, fun other apart =>
          ⟨root, held, follow_set_apart done apart⟩⟩

/-- A record inside of an array of an object. -/
def nestedValue (left : Value) : Value :=
  .object [("list", .array [.record 0 0 "Pair" [("left", left),
    ("right", .null)], .boolean true])]

theorem updates_lawful_nested :
    let _formatting : Formatting := ⟨fun _ => "", fun text => text⟩
    let types : TypeRegistry :=
      ⟨0, [("Pair", [⟨"left", ⟨"int", none⟩⟩, ⟨"right", ⟨"int", none⟩⟩])]⟩
    let path : List Selector :=
      [.property "list", .index (.integer 0), .property "left"]
    (nestedValue (.integer 1)).set types path (.integer 5) =
        .ok (nestedValue (.integer 5)) ∧
      (nestedValue (.integer 5)).follow path = .ok (.integer 5) ∧
      (nestedValue (.integer 5)).follow
          [.property "list", .index (.integer 1)] =
        (nestedValue (.integer 1)).follow
          [.property "list", .index (.integer 1)] ∧
      ∃ child, (nestedValue (.integer 5)).follow
          [.property "list", .index (.integer 0)] = .ok child ∧
        KeepsRecord (.record 0 0 "Pair" [("left", .integer 1),
          ("right", .null)]) child := by
  intro _formatting types path
  have done : (nestedValue (.integer 1)).set types path (.integer 5) =
      .ok (nestedValue (.integer 5)) := rfl
  obtain ⟨follows, elsewhere, keeps⟩ := updates_lawful.1 types _ _ _ path done
  refine ⟨done, follows, elsewhere _ ?_, keeps _ _ ?_ rfl⟩
  · constructor <;> simp [path, Extends, canonical]
  · simp [path, Extends, canonical]

end NetLang
