import NetLang.Interpreter.Execute

/-!
# Hoisting

The two passes that open a list of statements have no effects besides the
arenas.  This module computes what they add: one binding for each `let` and
each function, one entry of the function arena for each function, and the
environments that functions capture.
-/

namespace NetLang

open Interp

/-- The slots of a list of statements, from the next free one. -/
def slotsFrom : Nat → List Stmt → List (Option Nat)
  | _, [] => []
  | next, node :: rest =>
      match node.unspanned with
      | .let _ _ _ | .function _ _ _ _ => some next :: slotsFrom (next + 1) rest
      | _ => none :: slotsFrom next rest

theorem slotsFrom_length (first : Nat) (list : List Stmt) :
    (slotsFrom first list).length = list.length := by
  induction list generalizing first with
  | nil => rfl
  | cons node rest induction =>
      unfold slotsFrom
      split <;> simp [induction]

def resolveAnnotated (types : TypeRegistry)
    (annotated : Option TypeAnnotation) : Option ResolvedType :=
  annotated.bind fun a => types.resolve a.name

/-- The bindings after the first pass. -/
def reservedBindings (types : TypeRegistry) : List Stmt → List Binding
  | [] => []
  | node :: rest =>
      match node.unspanned with
      | .let _ annotated _ =>
          ⟨resolveAnnotated types annotated, none, true⟩ ::
            reservedBindings types rest
      | .function _ _ _ _ => ⟨none, none, false⟩ :: reservedBindings types rest
      | _ => reservedBindings types rest

/-- The bindings after the second pass, which fills those of functions with
consecutive handles. -/
def declaredBindings (types : TypeRegistry) :
    Nat → List Stmt → List Binding
  | _, [] => []
  | handle, node :: rest =>
      match node.unspanned with
      | .let _ annotated _ =>
          ⟨resolveAnnotated types annotated, none, true⟩ ::
            declaredBindings types handle rest
      | .function _ _ _ _ => ⟨none, some (.function handle), false⟩ ::
          declaredBindings types (handle + 1) rest
      | _ => declaredBindings types handle rest

/-- The innermost scope with the names of functions. -/
def hoistScope : Nat → List Stmt → NameMap Nat → NameMap Nat
  | _, [], scope => scope
  | next, node :: rest, scope =>
      match node.unspanned with
      | .let _ _ _ => hoistScope (next + 1) rest scope
      | .function name _ _ _ =>
          hoistScope (next + 1) rest (NameMap.insert scope name next)
      | _ => hoistScope next rest scope

/-- The functions of a list; each captures the names declared before it. -/
def declaredFunctions (types : TypeRegistry) (point : Point)
    (outer : Environment) :
    Nat → Nat → List Stmt → NameMap Nat → List Function
  | _, _, [], _ => []
  | i, next, node :: rest, scope =>
      match node.unspanned with
      | .let name _ _ => declaredFunctions types point outer (i + 1) (next + 1)
          rest (NameMap.insert scope name next)
      | .function name parameters returnAnnotated body =>
          ⟨name, parameters, resolveAnnotated types returnAnnotated,
              (returnAnnotated.bind TypeAnnotation.span).or node.span, body,
              scope :: outer, i :: point⟩ ::
            declaredFunctions types point outer (i + 1) (next + 1) rest scope
      | _ => declaredFunctions types point outer (i + 1) next rest scope

/-- The state after both passes. -/
def Interpreter.hoist (state : Interpreter) (point : Point)
    (list : List Stmt) (scope : NameMap Nat) (outer : Environment) :
    Interpreter :=
  { state with
    bindings := state.bindings ++
      declaredBindings state.types state.functions.length list
    functions := state.functions ++
      declaredFunctions state.types point outer 0 state.bindings.length list
        (hoistScope state.bindings.length list scope) }

@[simp] theorem Interp.bind_apply {α β : Type} (comp : Interp α)
    (f : α → Interp β) (state : Interpreter) :
    (comp >>= f) state = (comp state).bind fun
      | (.ok value, after) => f value after
      | (.error reason, after) => .ret (.error reason, after) :=
  rfl

@[simp] theorem Interp.pure_apply {α : Type} (value : α)
    (state : Interpreter) :
    (pure value : Interp α) state = .ret (.ok value, state) :=
  rfl

theorem reserve_eq (list : List Stmt) (scope : NameMap Nat)
    (outer : Environment) (state : Interpreter) :
    reserve list (scope :: outer) state =
      .ret (.ok (slotsFrom state.bindings.length list,
          hoistScope state.bindings.length list scope :: outer),
        { state with
          bindings := state.bindings ++ reservedBindings state.types list }) := by
  induction list generalizing scope state with
  | nil => simp [reserve, slotsFrom, hoistScope, reservedBindings]
  | cons node rest induction =>
      simp only [reserve, slotsFrom, hoistScope, reservedBindings]
      cases node.unspanned <;>
        simp [annotationType, allocate, declareIn, Environment.declare,
          induction, resolveAnnotated]

theorem List.modify_append_cons {α : Type} (before : List α) (value : α)
    (after : List α) (f : α → α) :
    (before ++ value :: after).modify before.length f =
      before ++ f value :: after := by
  induction before with
  | nil => rfl
  | cons head tail induction => simp [induction]

/-- The second pass fills the reserved bindings one by one. -/
theorem declareFunctions_eq (point : Point) (list : List Stmt)
    (outer : Environment) (i : Nat) (scope : NameMap Nat)
    (before : List Binding) (state : Interpreter)
    (reserved : state.bindings =
      before ++ reservedBindings state.types list) :
    declareFunctions point i
        (list.zip (slotsFrom before.length list)) (scope :: outer) state =
      .ret (.ok (), { state with
        bindings := before ++
          declaredBindings state.types state.functions.length list
        functions := state.functions ++
          declaredFunctions state.types point outer i before.length list
            scope }) := by
  induction list generalizing i scope before state with
  | nil =>
      simp only [reservedBindings, List.append_nil] at reserved
      simp [declareFunctions, slotsFrom, declaredBindings, declaredFunctions,
        ← reserved]
  | cons node rest induction =>
      simp only [slotsFrom, declaredBindings, declaredFunctions]
      simp only [reservedBindings] at reserved
      cases shape : node.unspanned with
      | «let» name annotated value =>
          simp only [shape] at reserved
          have next := induction (i + 1)
            (NameMap.insert scope name before.length)
            (before ++ [⟨resolveAnnotated state.types annotated, none, true⟩])
            state (by simp [reserved])
          simp only [List.length_append, List.length_singleton] at next
          simp [declareFunctions, shape, slotOf, declareIn,
            Environment.declare, next]
      | function name parameters returnAnnotated body =>
          simp only [shape] at reserved
          have next := induction (i + 1) scope
            (before ++ [⟨none, some (.function state.functions.length), false⟩])
            { state with
              bindings := before ++
                ⟨none, some (.function state.functions.length), false⟩ ::
                  reservedBindings state.types rest
              functions := state.functions ++
                [⟨name, parameters,
                  resolveAnnotated state.types returnAnnotated,
                  (returnAnnotated.bind TypeAnnotation.span).or node.span,
                  body, scope :: outer, i :: point⟩] }
            (by simp)
          simp only [List.length_append, List.length_singleton] at next
          simp [declareFunctions, shape, slotOf, defineFunction,
            annotationType, Interp.get, Interp.modify, write, reserved,
            List.modify_append_cons, resolveAnnotated]
          simpa [resolveAnnotated] using next
      | _ =>
          simp only [shape] at reserved
          simp [declareFunctions, shape,
            induction (i + 1) scope before state reserved]

/-- A list of statements runs in the state and the environment that hoisting
leads to. -/
theorem statements_eq [Formatting] (self : Evaluator) (point : Point)
    (list : List Stmt) (scope : NameMap Nat) (outer : Environment)
    (state : Interpreter) :
    statements self point list (scope :: outer) state =
      executeAll self point 0
        (list.zip (slotsFrom state.bindings.length list))
        (hoistScope state.bindings.length list scope :: outer)
        (state.hoist point list scope outer) := by
  have declared := declareFunctions_eq point list outer 0
    (hoistScope state.bindings.length list scope) state.bindings
    { state with
      bindings := state.bindings ++ reservedBindings state.types list } rfl
  simp [statements, reserve_eq, declared, Interpreter.hoist]

/-- The `let` slots of a list point into the reserved bindings. -/
theorem mem_zip_slotsFrom (types : TypeRegistry) (handle : Nat)
    {first : Nat} {list : List Stmt} {node : Stmt} {slot : Nat}
    (member : (node, some slot) ∈ list.zip (slotsFrom first list))
    {name : String} {annotated : Option TypeAnnotation} {value : Expr}
    (shape : node.unspanned = .let name annotated value) :
    ∃ i, slot = first + i ∧ (declaredBindings types handle list)[i]? =
      some ⟨resolveAnnotated types annotated, none, true⟩ := by
  induction list generalizing first handle with
  | nil => cases member
  | cons head rest induction =>
      simp only [slotsFrom] at member
      simp only [declaredBindings]
      have later : ∀ {handle first : Nat},
          (node, some slot) ∈ rest.zip (slotsFrom (first + 1) rest) →
          ∀ binding, ∃ i, slot = first + i ∧
            (binding :: declaredBindings types handle rest)[i]? =
              some ⟨resolveAnnotated types annotated, none, true⟩ := by
        intro handle first member binding
        obtain ⟨i, same, found⟩ := induction handle member
        exact ⟨i + 1, by omega, by simpa using found⟩
      cases headShape : head.unspanned with
      | «let» headName headAnnotated headValue =>
          simp only [headShape, List.zip_cons_cons] at member ⊢
          rcases List.mem_cons.mp member with here | after
          · cases here
            cases headShape.symm.trans shape
            exact ⟨0, rfl, rfl⟩
          · exact later after _
      | function functionName parameters returnAnnotated body =>
          simp only [headShape, List.zip_cons_cons] at member ⊢
          rcases List.mem_cons.mp member with here | after
          · cases here
            cases headShape.symm.trans shape
          · exact later after _
      | _ =>
          simp only [headShape, List.zip_cons_cons] at member ⊢
          rcases List.mem_cons.mp member with here | after
          · cases here
          · exact induction handle after

end NetLang
