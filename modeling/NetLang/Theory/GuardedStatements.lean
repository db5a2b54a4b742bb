import NetLang.Theory.GuardedParallel

/-!
# Guarded statements

Every statement keeps the invariant, given that the nested expressions and
bodies do, and so does every evaluator.
-/

namespace NetLang

open Interp Guard

variable {guard : Guard} {self : Evaluator} {env : Environment}
  {state : Interpreter} {left : Nat}

section Hoisting

theorem hoistScope_below {first bound : Nat} {types : TypeRegistry}
    (handle : Nat) {list : List Stmt} {scope : NameMap Nat}
    (room : first + (declaredBindings types handle list).length ≤ bound)
    (slots : ∀ entry ∈ scope, entry.2 < bound) :
    ∀ entry ∈ hoistScope first list scope, entry.2 < bound := by
  induction list generalizing first handle scope with
  | nil => exact slots
  | cons node rest induction =>
      unfold hoistScope
      cases shape : node.unspanned with
      | «let» name annotated value =>
          simp only [declaredBindings, shape, List.length_cons] at room
          exact induction handle (by omega) slots
      | function name parameters returnAnnotated body =>
          simp only [declaredBindings, shape, List.length_cons] at room
          refine induction (handle + 1) (by omega)
            fun entry member => ?_
          rcases List.mem_cons.mp member with rfl | old
          · exact (by omega : first < bound)
          · exact slots entry old
      | _ =>
          simp only [declaredBindings, shape] at room
          exact induction handle room slots

theorem declaredFunctions_closed {types : TypeRegistry} {point : Point}
    {outer : Environment} {first bound i : Nat} (handle : Nat)
    {list : List Stmt} {scope : NameMap Nat}
    (room : first + (declaredBindings types handle list).length ≤ bound)
    (slots : ∀ entry ∈ scope, entry.2 < bound)
    (outside : ∀ scope ∈ outer, ∀ entry ∈ scope, entry.2 < bound)
    (tame : ∀ node ∈ list, node.Tame) :
    ∀ function ∈ declaredFunctions types point outer i first list scope,
      function.Closed bound := by
  induction list generalizing first handle i scope with
  | nil => exact nofun
  | cons node rest induction =>
      have others := fun other member =>
        tame other (List.mem_cons_of_mem node member)
      unfold declaredFunctions
      cases shape : node.unspanned with
      | «let» name annotated value =>
          simp only [declaredBindings, shape, List.length_cons] at room
          refine induction handle (by omega)
            (fun entry member => ?_) others
          rcases List.mem_cons.mp member with rfl | old
          · exact (by omega : first < bound)
          · exact slots entry old
      | function name parameters returnAnnotated body =>
          simp only [declaredBindings, shape, List.length_cons] at room
          intro function member
          rcases List.mem_cons.mp member with rfl | later
          · have inner : node.unspanned.Tame :=
              (Stmt.unspanned_tame node).mpr (tame node List.mem_cons_self)
            rw [shape, Stmt.Tame] at inner
            refine ⟨fun captured found => ?_, inner.2, inner.1,
              List.cons_ne_nil _ _⟩
            rcases List.mem_cons.mp found with rfl | above
            · exact slots
            · exact outside captured above
          · exact induction (handle + 1) (by omega) slots others
              function later
      | _ =>
          simp only [declaredBindings, shape] at room
          exact induction handle room slots others

theorem declaredBindings_holds {types : TypeRegistry} {handle : Nat}
    {list : List Stmt} {binding : Binding} {value : Value}
    (member : binding ∈ declaredBindings types handle list)
    (stored : binding.value = some value) :
    binding.Holds guard.types guard.records value := by
  induction list generalizing handle with
  | nil => cases member
  | cons node rest induction =>
      unfold declaredBindings at member
      cases shape : node.unspanned with
      | «let» name annotated initializer =>
          simp only [shape] at member
          rcases List.mem_cons.mp member with rfl | later
          · cases stored
          · exact induction later
      | function name parameters returnAnnotated body =>
          simp only [shape] at member
          rcases List.mem_cons.mp member with rfl | later
          · cases stored
            exact ⟨Value.known_function _, TypeRegistry.fits_none _ _⟩
          · exact induction later
      | _ =>
          simp only [shape] at member
          exact induction member

/-- Hoisted annotations are resolved in the registry. -/
theorem declaredBindings_annotated {types : TypeRegistry} {handle : Nat}
    {list : List Stmt} {binding : Binding}
    (member : binding ∈ declaredBindings types handle list) :
    types.Annotates binding.annotated := by
  induction list generalizing handle with
  | nil => cases member
  | cons node rest induction =>
      unfold declaredBindings at member
      cases shape : node.unspanned with
      | «let» name annotated initializer =>
          simp only [shape] at member
          rcases List.mem_cons.mp member with rfl | later
          · exact types.annotates_bind _ _
          · exact induction later
      | function name parameters returnAnnotated body =>
          simp only [shape] at member
          rcases List.mem_cons.mp member with rfl | later
          · exact types.annotates_none
          · exact induction later
      | _ =>
          simp only [shape] at member
          exact induction member

theorem declaredFunctions_annotated {types : TypeRegistry} {point : Point}
    {outer : Environment} {first i : Nat} {list : List Stmt}
    {scope : NameMap Nat} {function : Function}
    (member : function ∈
      declaredFunctions types point outer i first list scope) :
    types.Annotates function.returnType := by
  induction list generalizing first i scope with
  | nil => cases member
  | cons node rest induction =>
      unfold declaredFunctions at member
      cases shape : node.unspanned with
      | «let» name annotated initializer =>
          simp only [shape] at member
          exact induction member
      | function name parameters returnAnnotated body =>
          simp only [shape] at member
          rcases List.mem_cons.mp member with rfl | later
          · exact types.annotates_bind _ _
          · exact induction later
      | _ =>
          simp only [shape] at member
          exact induction member

theorem Guard.Inv.hoist (inv : guard.Inv state) {point : Point}
    {list : List Stmt} {scope : NameMap Nat} {outer : Environment}
    (inside : Environment.Inside (scope :: outer) state.bindings.length)
    (tame : ∀ node ∈ list, node.Tame) :
    guard.Inv (state.hoist point list scope outer) := by
  have larger : ∀ size, size < state.bindings.length →
      size < state.bindings.length + (declaredBindings state.types
        state.functions.length list).length :=
    fun _ less => less.trans_le (Nat.le_add_right _ _)
  refine inv.extend (fun binding member value => declaredBindings_holds member)
    (declaredFunctions_closed _ le_rfl
      (hoistScope_below _ le_rfl fun entry member => larger _
        (inside.slots scope List.mem_cons_self entry member))
      (fun other member entry found => larger _
        (inside.slots other (List.mem_cons_of_mem _ member) entry found))
      tame)
    (fun binding member => by
      rw [← inv.types]
      exact declaredBindings_annotated member)
    fun function member => by
      rw [← inv.types]
      exact declaredFunctions_annotated member

theorem hoist_inside {point : Point} {list : List Stmt}
    {scope : NameMap Nat} {outer : Environment}
    (inside : Environment.Inside (scope :: outer) state.bindings.length) :
    Environment.Inside (hoistScope state.bindings.length list scope :: outer)
      (state.hoist point list scope outer).bindings.length := by
  have length : (state.hoist point list scope outer).bindings.length =
      state.bindings.length + (declaredBindings state.types
        state.functions.length list).length := by
    simp [Interpreter.hoist]
  have wider := inside.mono (length ▸ Nat.le_add_right _ _ :
    state.bindings.length ≤
      (state.hoist point list scope outer).bindings.length)
  refine ⟨List.cons_ne_nil _ _, fun other member => ?_⟩
  rcases List.mem_cons.mp member with rfl | above
  · exact hoistScope_below _ length.ge (wider.slots scope List.mem_cons_self)
  · exact wider.slots other (List.mem_cons_of_mem _ above)

/-- The slot that a statement gives its first value. -/
def filled (entry : Stmt × Option Nat) : List Nat :=
  match entry.1.unspanned with
  | .let _ _ _ => entry.2.toList
  | _ => []

/-- The slots that the statements of a list fill. -/
def slotsOf (list : List (Stmt × Option Nat)) : List Nat :=
  list.flatMap filled

/-- Every `let` of a list has a slot of its own, which waits for it. -/
structure Guard.Slotted (guard : Guard) (state : Interpreter)
    (list : List (Stmt × Option Nat)) : Prop where
  slots : ∀ entry ∈ list, ∀ name annotated value,
    entry.1.unspanned = .let name annotated value →
      ∃ id, entry.2 = some id ∧ id < state.bindings.length ∧
        (guard.careful → Uninitialized state id)
  distinct : (slotsOf list).Nodup

/-- A statement fills the next slot, leaves it empty, or has none. -/
theorem slotsOf_cons (first : Nat) (node : Stmt) (rest : List Stmt) :
    slotsOf ((node :: rest).zip (slotsFrom first (node :: rest))) =
        first :: slotsOf (rest.zip (slotsFrom (first + 1) rest)) ∨
      slotsOf ((node :: rest).zip (slotsFrom first (node :: rest))) =
        slotsOf (rest.zip (slotsFrom (first + 1) rest)) ∨
      slotsOf ((node :: rest).zip (slotsFrom first (node :: rest))) =
        slotsOf (rest.zip (slotsFrom first rest)) := by
  cases shape : node.unspanned with
  | «let» name annotated value =>
      refine .inl ?_
      simp only [slotsFrom, slotsOf, filled, shape, List.zip_cons_cons,
        List.flatMap_cons, Option.toList_some, List.singleton_append]
  | function name parameters returnAnnotated body =>
      refine .inr (.inl ?_)
      simp only [slotsFrom, slotsOf, filled, shape, List.zip_cons_cons,
        List.flatMap_cons, List.nil_append]
  | _ =>
      refine .inr (.inr ?_)
      simp only [slotsFrom, slotsOf, filled, shape, List.zip_cons_cons,
        List.flatMap_cons, List.nil_append]

theorem slotsFrom_above {first : Nat} {list : List Stmt} :
    ∀ id ∈ slotsOf (list.zip (slotsFrom first list)), first ≤ id := by
  induction list generalizing first with
  | nil => exact nofun
  | cons node rest induction =>
      have later : ∀ id ∈ slotsOf
          (rest.zip (slotsFrom (first + 1) rest)), first ≤ id :=
        fun id member => (Nat.le_succ _).trans (induction id member)
      intro id member
      rcases slotsOf_cons first node rest with same | same | same
      · rw [same] at member
        rcases List.mem_cons.mp member with rfl | above
        · exact le_rfl
        · exact later id above
      · exact later id (same ▸ member)
      · exact induction id (same ▸ member)

theorem slotsFrom_nodup {first : Nat} {list : List Stmt} :
    (slotsOf (list.zip (slotsFrom first list))).Nodup := by
  induction list generalizing first with
  | nil => exact List.nodup_nil
  | cons node rest induction =>
      have fresh : first ∉ slotsOf
          (rest.zip (slotsFrom (first + 1) rest)) := by
        intro member
        have above := slotsFrom_above first member
        omega
      rcases slotsOf_cons first node rest with same | same | same
      · rw [same]
        exact List.nodup_cons.mpr ⟨fresh, induction⟩
      · rw [same]
        exact induction
      · rw [same]
        exact induction

theorem slotsFrom_some {first : Nat} {list : List Stmt}
    {entry : Stmt × Option Nat}
    (member : entry ∈ list.zip (slotsFrom first list)) {name : String}
    {annotated : Option TypeAnnotation} {value : Expr}
    (shape : entry.1.unspanned = .let name annotated value) :
    ∃ id, entry.2 = some id := by
  induction list generalizing first with
  | nil => cases member
  | cons node rest induction =>
      unfold slotsFrom at member
      cases headShape : node.unspanned with
      | «let» _ _ _ =>
          simp only [headShape, List.zip_cons_cons] at member
          rcases List.mem_cons.mp member with rfl | later
          · exact ⟨_, rfl⟩
          · exact induction later
      | function _ _ _ _ =>
          simp only [headShape, List.zip_cons_cons] at member
          rcases List.mem_cons.mp member with rfl | later
          · exact ⟨_, rfl⟩
          · exact induction later
      | _ =>
          simp only [headShape, List.zip_cons_cons] at member
          rcases List.mem_cons.mp member with rfl | later
          · cases headShape.symm.trans shape
          · exact induction later

theorem hoist_slotted (point : Point) (list : List Stmt)
    (scope : NameMap Nat) (outer : Environment) :
    guard.Slotted (state.hoist point list scope outer)
      (list.zip (slotsFrom state.bindings.length list)) := by
  refine ⟨fun entry member name annotated value shape => ?_, slotsFrom_nodup⟩
  obtain ⟨node, slot⟩ := entry
  obtain ⟨id, rfl⟩ := slotsFrom_some member shape
  obtain ⟨i, rfl, found⟩ := mem_zip_slotsFrom state.types
    state.functions.length member shape
  have reserved : (state.hoist point list scope outer).bindings[
      state.bindings.length + i]? =
      some ⟨resolveAnnotated state.types annotated, none, true⟩ := by
    simp only [Interpreter.hoist]
    rw [List.getElem?_append_right (Nat.le_add_right _ _),
      Nat.add_sub_cancel_left, found]
  exact ⟨_, rfl, (List.getElem?_eq_some_iff.mp reserved).1,
    fun _ => ⟨_, reserved, rfl⟩⟩

end Hoisting

section Statements

variable [Formatting] (guarded : self.Guarded guard)
include guarded

omit [Formatting] in
theorem guards_condition (point : Point) (test : Expr)
    (fueled : guard.Fueled left self.clock)
    (inside : env.Inside state.bindings.length) :
    guard.Runs .none (condition self point test env)
      (fun _ _ left' => left' < left) state left := by
  refine (guarded.expression fueled inside _ _).bind
    fun value _ _ _ _ _ held => ?_
  refine ((runs_operation (asBoolean_operational value)).relocate).mono
    fun _ _ _ less _ _ _ => less.trans_lt held.2

omit [Formatting] in
theorem guards_scopedBody (point : Point) (body : Stmt)
    (fueled : guard.Fueled left self.clock)
    (inside : env.Inside state.bindings.length) (below : point ≠ [])
    (tame : body.Tame) :
    guard.Runs .none (scopedBody self point body env)
      (fun flow after _ => guard.Leaves after.returnType body.jumps flow)
      state left := by
  have opened : Environment.Inside ([] :: env) state.bindings.length :=
    inside.push nofun
  exact (guarded.body fueled opened _ _ below tame).bindPure
    fun _ _ _ leaves => leaves

omit [Formatting] in
/-- A loop needs more fuel than a body: it runs its condition before the first
step is taken. -/
theorem guards_whileLoop (point : Point) (test : Expr) (body : Stmt)
    (fueled : guard.short ∨ 2 * left < self.clock)
    (inside : env.Inside state.bindings.length) (tame : body.Tame) :
    guard.Runs .none (whileLoop self point test body env)
      (fun flow after _ =>
        guard.Leaves after.returnType (body.jumps.filter (· = .return)) flow)
      state left := by
  refine (guards_condition guarded _ test fueled inside).bind
    fun again next left' _ grows _ fewer => ?_
  refine .ite (fun _ => ?_) fun _ => runs_pure fun _ _ => leaves_normal
  have enough : guard.short ∨ 2 * left' + 1 < self.clock :=
    fueled.imp_right fun bound => by omega
  refine (guards_scopedBody guarded (1 :: point) body
    (enough.imp_right fun bound => by omega) (inside.keep grows)
    (List.cons_ne_nil _ _) tame).bind
    fun flow last left'' less longer _ leaves => ?_
  have repeats := guarded.whileLoop
    (enough.imp_right fun bound => by omega : guard.short ∨
      2 * left'' + 1 < self.clock)
    ((inside.keep grows).keep longer) point test body tame
  cases flow with
  | normal => exact repeats
  | «continue» => exact repeats
  | «break» => exact runs_pure fun _ _ => leaves_normal
  | «return» value =>
      exact runs_pure fun _ _ => ⟨leaves.among.loop, leaves.known,
        leaves.fits⟩

omit [Formatting] in
theorem guards_forLoop (point : Point) (variableName : String)
    (body : Stmt) (values : List Value)
    (known : ∀ value ∈ values, value.Known guard.records)
    (fueled : guard.Fueled left self.clock)
    (inside : env.Inside state.bindings.length) (tame : body.Tame) :
    guard.Runs .none (forLoop self point variableName body env values)
      (fun flow after _ =>
        guard.Leaves after.returnType (body.jumps.filter (· = .return)) flow)
      state left := by
  induction values generalizing state left with
  | nil => exact runs_pure fun _ _ => leaves_normal
  | cons value rest induction =>
      refine runs_step.bind fun _ next _ less grows _ _ => ?_
      refine (runs_fresh (known value List.mem_cons_self)
        (TypeRegistry.fits_none _ _) (TypeRegistry.annotates_none _)).bind
        fun id later _ fewer longer _ bound => ?_
      have outer := (inside.keep grows).keep longer
      have opened : Environment.Inside ([(variableName, id)] :: env)
          later.bindings.length := by
        refine outer.push fun entry member => ?_
        rw [List.mem_singleton] at member
        exact member ▸ bound
      have enough := (fueled.mono less).mono fewer
      refine (guarded.body enough opened _ _ (List.cons_ne_nil _ _)
        tame).bind fun outcome last _ more further _ leaves => ?_
      obtain ⟨flow, final⟩ := outcome
      have repeats := induction
        (fun other member => known other (List.mem_cons_of_mem _ member))
        (enough.mono more) (outer.keep further)
      cases flow with
      | normal => exact repeats
      | «continue» => exact repeats
      | «break» => exact runs_pure fun _ _ => leaves_normal
      | «return» value =>
          exact runs_pure fun _ _ => ⟨leaves.among.loop, leaves.known,
        leaves.fits⟩

omit [Formatting] in
theorem guards_matchArms (point : Point) (value : Value) (i : Nat)
    (arms : List (Pattern × Stmt))
    (fueled : guard.Fueled left self.clock)
    (inside : env.Inside state.bindings.length)
    (tame : Stmt.TameArms arms) :
    guard.Runs .none (matchArms self point env value i arms)
      (fun flow after _ =>
        guard.Leaves after.returnType (Stmt.armJumps arms) flow) state left := by
  induction arms generalizing i with
  | nil => exact runs_pure fun _ _ => leaves_normal
  | cons arm rest induction =>
      refine .ite (fun _ => ?_) fun _ => ?_
      · exact (guards_scopedBody guarded (i :: point) arm.2 fueled inside
          (List.cons_ne_nil _ _) tame.1).mono fun _ _ _ _ _ _ leaves =>
            leaves.mono (List.subset_append_left _ _)
      · exact (induction (i + 1) tame.2).mono fun _ _ _ _ _ _ leaves =>
          leaves.mono (List.subset_append_right _ _)

omit [Formatting] in
theorem guards_returnValue (point : Point) (value : Option Expr)
    (fueled : guard.Fueled left self.clock)
    (inside : env.Inside state.bindings.length) :
    guard.Runs .none (returnValue self point env value)
      (fun value _ _ => value.Known guard.records) state left := by
  cases value with
  | some value =>
      exact (guarded.expression fueled inside _ _).mono
        fun _ _ _ _ _ _ held => held.1
  | none => exact runs_pure fun _ _ => Value.known_atom rfl

theorem guards_statement (point : Point) (below : point ≠ []) :
    ∀ (node : Stmt) (state : Interpreter),
      (guard.short ∨ 2 * left + 1 < self.clock) →
      env.Inside state.bindings.length → node.Tame →
      (∀ name annotated value, node.unspanned ≠ .let name annotated value) →
      guard.Runs .none (statement self point node env)
        (fun flow after _ => guard.Leaves after.returnType node.jumps flow)
        state left
  | .type _ _, _, _, _, _, _ => runs_pure fun _ _ => leaves_normal
  | .function _ _ _ _, _, _, _, _, _ => runs_pure fun _ _ => leaves_normal
  | .break, _, _, _, _, _ => runs_pure fun _ _ =>
      ⟨by rintro _ ⟨⟩; exact List.mem_cons_self, nofun, nofun⟩
  | .continue, _, _, _, _, _ => runs_pure fun _ _ =>
      ⟨by rintro _ ⟨⟩; exact List.mem_cons_self, nofun, nofun⟩
  | .located span inner, state, fueled, inside, tame, other => by
      have runs := guards_statement point below inner
        { state with currentSpan := (some span).or state.currentSpan } fueled
        inside tame other
      exact runs.withSpan fun _ _ _ held => held
  | .let name annotated value, _, _, _, _, other =>
      absurd rfl (other name annotated value)
  | .expression _, _, fueled, inside, _, _ =>
      (guarded.expression (fueled.imp_right (by omega)) inside _ _).bind
        fun _ _ _ _ _ _ _ => runs_pure fun _ _ => leaves_normal
  | .block list, _, fueled, inside, tame, _ =>
      guards_scopedBody guarded (1 :: point) (.block list)
        (fueled.imp_right (by omega)) inside nofun tame
  | .return value, state, fueled, inside, _, _ => by
      refine (runs_ask fun _ => rfl).bind fun _ _ _ less _ _ same => ?_
      obtain ⟨_, rfl⟩ := same
      refine (guards_returnValue guarded point value
        ((show guard.Fueled left self.clock from
          fueled.imp_right (by omega)).mono less) inside).bind
        fun returned _ _ _ _ _ known => ?_
      refine (runs_checkReturn.relocate).bind fun _ _ _ _ _ _ passed => ?_
      refine runs_pure fun _ _ => ⟨?_, ?_, ?_⟩
      · rintro _ ⟨⟩
        exact List.mem_cons_self
      · rintro _ ⟨⟩
        exact known
      · rintro _ ⟨⟩
        exact passed.2
  | .if test thenBranch elseBranch, state, fueled, inside, tame, _ => by
      have enough : guard.Fueled left self.clock :=
        fueled.imp_right (by omega)
      refine (guards_condition guarded _ test enough inside).bind
        fun chosen next _ less grows _ _ => .ite (fun _ => ?_) fun _ => ?_
      · exact (guards_scopedBody guarded _ thenBranch (enough.mono less)
          (inside.keep grows) (List.cons_ne_nil _ _) tame.1).mono
          fun _ _ _ _ _ _ leaves =>
            leaves.mono (List.subset_append_left _ _)
      · cases elseBranch with
        | none => exact runs_pure fun _ _ => leaves_normal
        | some branch =>
            exact (guards_scopedBody guarded _ branch (enough.mono less)
              (inside.keep grows) (List.cons_ne_nil _ _) tame.2).mono
              fun _ _ _ _ _ _ leaves =>
                leaves.mono (List.subset_append_right _ _)
  | .while test body, _, fueled, inside, tame, _ =>
      guarded.whileLoop fueled inside point test body tame
  | .for variableName iterable body, state, fueled, inside, tame, _ => by
      have enough : guard.Fueled left self.clock :=
        fueled.imp_right (by omega)
      refine (guarded.expression enough inside _ _).bind
        fun values _ _ less grows _ held => ?_
      split
      · exact guards_forLoop guarded point variableName body _
          (Value.known_array.mp held.1) (enough.mono less)
          (inside.keep grows) tame
      · exact runs_fail trivial
  | .match value arms, state, fueled, inside, tame, _ => by
      have enough : guard.Fueled left self.clock :=
        fueled.imp_right (by omega)
      exact (guarded.expression enough inside _ _).bind
        fun _ _ _ less grows _ _ => guards_matchArms guarded point _ 1 arms
          (enough.mono less) (inside.keep grows) tame
  | .parallel variableName iterable body, state, fueled, inside, tame, _ =>
      (guards_parallel guarded point variableName iterable body
        (fueled.imp_right (by omega)) inside tame.2 tame.1).bind
        fun _ _ _ _ _ _ _ => runs_pure fun _ _ => leaves_normal

omit [Formatting] guarded in
/-- The value of an initializer is checked, stored and given its name. -/
theorem guards_initialize (point : Point) (name : String) (value : Value)
    (id : Nat) (locate : Option Span → Option Span)
    (known : value.Known guard.records)
    (inside : env.Inside state.bindings.length)
    (bound : id < state.bindings.length) :
    guard.Runs ⟨[id], []⟩ (do
        relocate locate (checkBinding point id value)
        write id value
        let env ← declareIn env name id
        pure (Flow.normal, env))
      (fun outcome after _ => outcome.1 = .normal ∧
        outcome.2.Inside after.bindings.length ∧
        outcome.2.resolve name = some id ∧ ∃ binding stored,
          after.bindings[id]? = some binding ∧ binding.value = some stored)
      state left := by
  refine (runs_checkBinding bound).relocate.bind fun _ _ _ _ _ _ passed => ?_
  obtain ⟨rfl, fits, _⟩ := passed
  obtain ⟨declared, shape, kept, found⟩ := inside.declare name bound
  have pureDeclared : declareIn env name id = pure declared := by
    unfold declareIn
    rw [shape]
  rw [pureDeclared]
  refine (guards_write known fits bound).bindPure fun _ after _ held => ?_
  obtain ⟨length, binding, stored, full⟩ := held
  exact ⟨rfl, length ▸ kept, found, binding, value, stored, full⟩

omit [Formatting] in
/-- A `let` fills the slot that waits for it, as its last effect. -/
theorem guards_executeLet (point : Point) (name : String) (value : Expr)
    (id : Nat) (fueled : guard.Fueled left self.clock)
    (inside : env.Inside state.bindings.length)
    (bound : id < state.bindings.length) :
    guard.Runs ⟨[id], []⟩ (executeLet self point name value (some id) env)
      (fun outcome after _ => outcome.1 = .normal ∧
        outcome.2.Inside after.bindings.length ∧
        outcome.2.resolve name = some id ∧ ∃ binding stored,
          after.bindings[id]? = some binding ∧ binding.value = some stored)
      state left := by
  refine (runs_ask fun _ => rfl).bind fun _ _ _ less _ _ same => ?_
  obtain ⟨_, rfl⟩ := same
  refine (guarded.expression (fueled.mono less) inside _ _).bind
    fun value next left' _ grows _ held => ?_
  exact guards_initialize point name value id _ held.1 (inside.keep grows)
    (bound.trans_le grows.longer)

/-- One statement of a list, with the slot that it fills. -/
theorem guards_execute (point : Point) (node : Stmt) (slot : Option Nat)
    (fueled : guard.Fueled left (self.clock + 1))
    (inside : env.Inside state.bindings.length) (below : point ≠ [])
    (tame : node.Tame) (slotted : guard.Slotted state [(node, slot)])
    (top : point.length = 1 → node.jumps = []) :
    guard.Runs ⟨filled (node, slot), []⟩ (execute self point node slot env)
      (fun outcome after _ =>
        guard.Leaves after.returnType node.jumps outcome.1 ∧
        outcome.2.Inside after.bindings.length) state left := by
  have runs : guard.Runs ⟨filled (node, slot), []⟩ (do
      tick point
      executeUnlocated self point node.unspanned slot env)
      (fun outcome after _ =>
        guard.Leaves after.returnType node.jumps outcome.1 ∧
        outcome.2.Inside after.bindings.length ∧
        ∀ name annotated value, node.unspanned = .let name annotated value →
          ∀ id, slot = some id → outcome.2.resolve name = some id ∧
            ∃ binding stored, after.bindings[id]? = some binding ∧
              binding.value = some stored)
      { state with currentSpan := node.span.or state.currentSpan } left := by
    refine runs_step.bind fun _ next left' less grows _ stepped => ?_
    have opened : env.Inside next.bindings.length :=
      inside.mono grows.longer
    have enough : guard.short ∨ 2 * left' + 1 < self.clock :=
      fueled.imp_right fun bound => by omega
    unfold executeUnlocated
    split
    · next name annotated value shape =>
        obtain ⟨id, known, bound, _⟩ := slotted.slots (node, slot)
          List.mem_cons_self name annotated value shape
        cases known
        have fills : filled (node, some id) = [id] := by
          simp [filled, shape]
        rw [fills]
        refine (guards_executeLet guarded point name value id
          (enough.imp_right fun bound => by omega) opened
          (bound.trans_le grows.longer)).mono ?_
        intro outcome after _ _ _ _ held
        obtain ⟨normal, kept, found, stored⟩ := held
        refine ⟨normal ▸ leaves_normal, kept, ?_⟩
        intro other annotated' value' same id' sameSlot
        cases shape.symm.trans same
        cases sameSlot
        exact ⟨found, stored⟩
    · next other =>
        refine (guards_statement guarded point below node.unspanned next enough
          opened ((Stmt.unspanned_tame node).mpr tame) (by
            simpa using other)).bind
          fun flow last _ _ longer _ leaves => ?_
        rw [Stmt.unspanned_jumps] at leaves
        exact runs_pure fun _ _ => ⟨leaves, opened.keep longer,
          fun name annotated value same => absurd same
            (other name annotated value)⟩
  have starts : (Observation.executing point node.unspanned env
      { state with currentSpan := node.span.or state.currentSpan }).Guarded
        guard := trivial
  refine Runs.withSpan (runs_observed starts (fun inv => inv.stores)
    (fun _ => runs) ?_ ?_) fun outcome after _ held => ⟨held.1, held.2.1⟩
  case refine_2 =>
    intro result after left' inv held
    exact ⟨inv.stores, held.inv.stores, fun value env same =>
      (held.ok _ same).1.known value rfl⟩
  intro result after left' _ held
  refine ⟨held.error, ?_, fun careful => ⟨?_, ?_⟩⟩
  · rintro outcome rfl
    have leaves := (held.ok outcome rfl).1
    rw [Stmt.unspanned_jumps]
    refine ⟨leaves.among, fun single => ?_⟩
    have among := leaves.among
    rw [top single] at among
    exact among.normal
  · intro name annotated value shape
    obtain ⟨id, known, _, waits⟩ := slotted.slots (node, slot)
      List.mem_cons_self name annotated value shape
    cases known
    have waiting : Uninitialized ({ state with
        currentSpan := node.span.or state.currentSpan } : Interpreter) id :=
      waits careful
    refine ⟨id, waiting, ?_, ?_, ?_⟩
    · have fills : filled (node, some id) = [id] := by
        simp [filled, shape]
      cases result with
      | ok outcome =>
          have grows := held.grows
          rwa [Fills.after, fills] at grows
      | error reason => exact held.grows.mono (List.nil_subset _)
    · rintro outcome rfl name' annotated' value' same
      exact (held.ok outcome rfl).2.2 name' annotated' value' same id rfl
    · rintro reason rfl
      exact held.grows.kept careful id List.not_mem_nil waiting
  · intro other
    cases result with
    | error reason => exact held.grows
    | ok outcome =>
        have fills : filled (node, slot) = [] := by
          unfold filled
          split
          · next shape => exact absurd shape (other _ _ _)
          · rfl
        have grows := held.grows
        rwa [Fills.after, fills] at grows

omit guarded [Formatting] in
/-- The slots of the other statements still wait after one has run. -/
theorem Guard.Slotted.tail {entry : Stmt × Option Nat}
    {rest : List (Stmt × Option Nat)} {after : Interpreter}
    (slotted : guard.Slotted state (entry :: rest))
    (grows : guard.Grows (filled entry) state after) :
    guard.Slotted after rest := by
  obtain ⟨slots, distinct⟩ := slotted
  rw [slotsOf, List.flatMap_cons, List.nodup_append] at distinct
  refine ⟨fun other member name annotated value shape => ?_, distinct.2.1⟩
  obtain ⟨id, known, bound, waits⟩ := slots other
    (List.mem_cons_of_mem _ member) name annotated value shape
  refine ⟨id, known, bound.trans_le grows.longer, fun careful =>
    grows.kept careful id (fun inside => ?_) (waits careful)⟩
  have later : id ∈ slotsOf rest :=
    List.mem_flatMap.mpr ⟨other, member, by simp [filled, shape, known]⟩
  exact distinct.2.2 id inside id later rfl

theorem guards_executeAll (point : Point) (i : Nat)
    (list : List (Stmt × Option Nat))
    (fueled : guard.Fueled left (self.clock + 1))
    (inside : env.Inside state.bindings.length)
    (tame : ∀ entry ∈ list, entry.1.Tame)
    (slotted : guard.Slotted state list)
    (top : point = [] → ∀ entry ∈ list, entry.1.jumps = []) :
    guard.Runs ⟨slotsOf list, slotsOf list⟩
      (executeAll self point i list env)
      (fun outcome after _ =>
        guard.Leaves after.returnType (Stmt.jumpsOf (list.map Prod.fst))
          outcome.1 ∧ outcome.2.Inside after.bindings.length) state left := by
  induction list generalizing i env state left with
  | nil => exact runs_pure fun _ _ => ⟨leaves_normal, inside⟩
  | cons entry rest induction =>
      obtain ⟨node, slot⟩ := entry
      have first : guard.Slotted state [(node, slot)] := by
        refine ⟨fun entry member => slotted.slots entry ?_, ?_⟩
        · rw [List.mem_singleton] at member
          exact member ▸ List.mem_cons_self
        · have distinct := slotted.distinct
          rw [slotsOf, List.flatMap_cons, List.nodup_append] at distinct
          simpa [slotsOf] using distinct.1
      have executes := guards_execute guarded (i :: point) node slot fueled
        inside (List.cons_ne_nil _ _) (tame _ List.mem_cons_self) first
        fun single => top (by simpa using single) _ List.mem_cons_self
      refine executes.bindWith ⟨slotsOf rest, slotsOf rest⟩ ?_
        (List.Subset.refl _) (List.Subset.refl _)
      intro outcome next left' less grows _ held
      obtain ⟨flow, env'⟩ := outcome
      have later := induction (i + 1) (fueled.mono less) held.2
        (fun entry member => tame entry (List.mem_cons_of_mem _ member))
        (slotted.tail grows)
        fun top' entry member =>
          top top' entry (List.mem_cons_of_mem _ member)
      have stops : guard.Runs ⟨slotsOf rest, slotsOf rest⟩
          (pure (flow, env')) (fun outcome after _ =>
            guard.Leaves after.returnType
              (Stmt.jumpsOf (node :: rest.map Prod.fst)) outcome.1 ∧
                outcome.2.Inside after.bindings.length)
          next left' :=
        runs_pure fun _ _ =>
          ⟨held.1.mono (List.subset_append_left _ _), held.2⟩
      cases flow with
      | normal =>
          exact later.mono fun _ _ _ _ _ _ done =>
            ⟨done.1.mono (List.subset_append_right _ _), done.2⟩
      | «continue» => exact stops
      | «break» => exact stops
      | «return» value => exact stops

theorem guards_statements (point : Point) (list : List Stmt)
    (fueled : guard.Fueled left (self.clock + 1))
    (inside : env.Inside state.bindings.length)
    (tame : ∀ node ∈ list, node.Tame)
    (top : point = [] → ∀ node ∈ list, node.jumps = []) :
    guard.Runs .none (statements self point list env)
      (fun outcome after _ =>
        guard.Leaves after.returnType (Stmt.jumpsOf list) outcome.1 ∧
          outcome.2.Inside after.bindings.length) state left := by
  cases env with
  | nil => exact absurd rfl inside.nonempty
  | cons scope outer =>
      intro inv
      rw [statements_eq]
      have zipped : (list.zip (slotsFrom state.bindings.length list)).map
          Prod.fst = list := by
        exact List.map_fst_zip (slotsFrom_length _ _).ge
      have opened : Environment.Inside
          (hoistScope state.bindings.length list scope :: outer)
          (state.hoist point list scope outer).bindings.length :=
        hoist_inside inside
      have runs := guards_executeAll guarded point 0
        (list.zip (slotsFrom state.bindings.length list)) fueled opened
        (fun entry member => tame _ (List.of_mem_zip member).1)
        (hoist_slotted point list scope outer)
        fun top' entry member => top top' _ (List.of_mem_zip member).1
      rw [zipped] at runs
      refine (runs (inv.hoist inside tame)).mono ?_
      rintro ⟨result, after⟩ left' _ held
      refine ⟨?_, held.inv, held.ok, held.error⟩
      have grown : guard.Grows [] state (state.hoist point list scope outer) :=
        .extend _ _
      have grows : guard.Grows (slotsOf (list.zip
          (slotsFrom state.bindings.length list)))
          (state.hoist point list scope outer) after := by
        cases result with
        | ok value => exact held.grows
        | error reason => exact held.grows
      have whole : guard.Grows [] state after := by
        refine ⟨grown.longer.trans grows.longer,
          grows.returnType.trans grown.returnType,
          fun careful id _ empty => grows.kept careful id ?_
            (grown.kept careful id nofun empty)⟩
        intro member
        have above := slotsFrom_above id member
        obtain ⟨binding, found, _⟩ := empty
        have below := (List.getElem?_eq_some_iff.mp found).1
        omega
      cases result with
      | ok value => exact whole
      | error reason => exact whole

/-- A body that is no block is a list of one statement. -/
theorem guards_single (point : Point) (below : point ≠ []) (node : Stmt)
    (fueled : guard.Fueled left (self.clock + 1))
    (inside : env.Inside state.bindings.length) (tame : node.Tame) :
    guard.Runs .none (statements self point [node] env)
      (fun outcome after _ =>
        guard.Leaves after.returnType node.jumps outcome.1) state left := by
  have only : ∀ other ∈ [node], other.Tame := by
    intro other member
    rw [List.mem_singleton] at member
    exact member ▸ tame
  have jumps : Stmt.jumpsOf [node] ⊆ node.jumps := by simp [Stmt.jumpsOf]
  exact (guards_statements guarded point [node] fueled inside only
    fun top => absurd top below).mono fun _ _ _ _ _ _ held =>
      held.1.mono jumps

theorem guards_body (point : Point) (below : point ≠ []) :
    ∀ (node : Stmt) (state : Interpreter),
      guard.Fueled left (self.clock + 1) →
      env.Inside state.bindings.length → node.Tame →
      guard.Runs .none (body self point node env)
        (fun outcome after _ =>
          guard.Leaves after.returnType node.jumps outcome.1) state left
  | .located span inner, state, fueled, inside, tame => by
      have runs := guards_body point below inner
        { state with currentSpan := (some span).or state.currentSpan } fueled
        inside tame
      exact runs.withSpan fun _ _ _ held => held
  | .block list, _, fueled, inside, tame =>
      runs_observe trivial (fun inv => inv.stores) fun _ =>
        (guards_statements guarded point list fueled inside
          (Stmt.tameAll_iff.mp tame) fun top => absurd top below).mono
          fun _ _ _ _ _ _ held => held.1
  | .type _ _, _, fueled, inside, tame
  | .break, _, fueled, inside, tame
  | .continue, _, fueled, inside, tame
  | .parallel _ _ _, _, fueled, inside, tame
  | .match _ _, _, fueled, inside, tame
  | .let _ _ _, _, fueled, inside, tame
  | .expression _, _, fueled, inside, tame
  | .if _ _ _, _, fueled, inside, tame
  | .while _ _, _, fueled, inside, tame
  | .for _ _ _, _, fueled, inside, tame
  | .function _ _ _ _, _, fueled, inside, tame
  | .return _, _, fueled, inside, tame =>
      runs_observe trivial (fun inv => inv.stores) fun _ =>
        guards_single guarded point below _ fueled inside tame

end Statements

section Evaluators

variable [Formatting]

theorem Evaluator.Guarded.step {self : Evaluator}
    (guarded : self.Guarded guard) : self.step.Guarded guard where
  expression := fun fueled inside point node =>
    guards_expression guarded point fueled node _ inside
  body := fun fueled inside point node below tame =>
    guards_body guarded point below node _ fueled inside tame
  whileLoop := fun fueled inside point test body tame =>
    guards_whileLoop guarded point test body
      (fueled.imp_right fun bound => Nat.lt_of_succ_lt_succ bound) inside tame

/-- Every evaluator keeps the invariant. -/
theorem evaluator_guarded (guard : Guard) (clock : Nat) :
    (evaluator clock).Guarded guard := by
  induction clock with
  | zero =>
      refine ⟨fun fueled _ _ _ => runs_stop ?_, fun fueled _ _ _ _ _ =>
        runs_stop ?_, fun fueled _ _ _ _ _ => runs_stop ?_⟩
      · exact fueled.resolve_right (Nat.not_lt_zero _)
      · exact fueled.resolve_right (Nat.not_lt_zero _)
      · exact fueled.resolve_right (Nat.not_lt_zero _)
  | succ clock induction => exact induction.step

end Evaluators

end NetLang
