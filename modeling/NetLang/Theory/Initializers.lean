import NetLang.Library.Paths
import NetLang.Theory.ControlFlow

/-!
# Bindings and their initializers
-/

namespace NetLang

open Interp Guard

/-- What a run shows if no binding is reached before the initializer of its
`let` has executed.  Whatever reads or assigns an uninitialized binding fails,
and leaves it uninitialized; so does everything else, except for the `let`
itself, which finds its binding uninitialized, and leaves it so if it
fails. -/
structure WaitsForInitializers (notes : List Observation) : Prop where
  reads : ∀ point name env before result after id,
    .evaluated point (.identifier name) env before result after ∈ notes →
      env.resolve name = some id → Uninitialized before id →
      (∀ value, result ≠ .ok value) ∧ Uninitialized after id
  assigns : ∀ point target env id selectors before result after,
    .assigned point target env id selectors before result after ∈ notes →
      Uninitialized before id →
      (∀ value, result ≠ .ok value) ∧ Uninitialized after id
  evaluations : ∀ point node env before result after,
    .evaluated point node env before result after ∈ notes →
      ∀ id, Uninitialized before id → Uninitialized after id
  statements : ∀ point node env before result after,
    .executed point node env before result after ∈ notes →
      (∀ name annotated value, node ≠ .let name annotated value) →
      ∀ id, Uninitialized before id → Uninitialized after id
  lets : ∀ point name annotated value env before result after,
    .executed point (.let name annotated value) env before result after ∈
      notes → ∃ slot, Uninitialized before slot ∧
        (∀ other, other ≠ slot → Uninitialized before other →
          Uninitialized after other) ∧
        (∀ outcome, result = .ok outcome →
          outcome.2.resolve name = some slot ∧ ∃ binding stored,
            after.bindings[slot]? = some binding ∧
              binding.value = some stored) ∧
        ∀ reason, result = .error reason → Uninitialized after slot

theorem Observation.Guarded.waits {guard : Guard}
    {notes : List Observation} (careful : guard.careful)
    (guarded : ∀ note ∈ notes, note.Guarded guard) :
    WaitsForInitializers notes where
  reads := by
    intro point name env before result after id member found waiting
    obtain ⟨_, grows, fails⟩ := guarded _ member
    exact ⟨fails name id rfl found waiting,
      grows.kept careful id nofun waiting⟩
  assigns := by
    intro point target env id selectors before result after member waiting
    obtain ⟨_, grows, fails⟩ := guarded _ member
    exact ⟨fails careful waiting, grows.kept careful id nofun waiting⟩
  evaluations := by
    intro point node env before result after member id waiting
    exact (guarded _ member).2.1.kept careful id nofun waiting
  statements := by
    intro point node env before result after member other id waiting
    exact (((guarded _ member).2.2 careful).2 other).kept careful id nofun
      waiting
  lets := by
    intro point name annotated value env before result after member
    obtain ⟨slot, initializes⟩ :=
      ((guarded _ member).2.2 careful).1 name annotated value rfl
    refine ⟨slot, initializes.waiting, fun other different waiting => ?_,
      fun outcome same => initializes.ok outcome same name annotated value rfl,
      initializes.error⟩
    refine initializes.others.kept careful other (fun inside => ?_) waiting
    exact different (List.mem_singleton.mp inside)

theorem path_declareIn {env extended : Environment} {name : String} {id : Nat}
    {state final : Interpreter} {events : List (Event effects)}
    (path : (declareIn env name id).Path state events (.ok extended) final) :
    final = state := by
  unfold declareIn at path
  split at path
  · exact (path_pure.mp path).2.2
  · obtain ⟨_, wrong⟩ := Comp.path_ret.mp path
    cases wrong

/-- What a `let` leaves in its slot is the value of its initializer. -/
theorem executeLet_stores {self : Evaluator} {point : Point} {name : String}
    {value : Expr} {id : Nat} {env : Environment} {state final : Interpreter}
    {events : List (Event effects)} {outcome : Flow × Environment}
    (path : (executeLet self point name value (some id) env).Path state events
      (.ok outcome) final) :
    ∃ front stored middle,
      (self.expression (0 :: point) value env).Path state front (.ok stored)
        middle ∧ final = written middle id stored := by
  obtain ⟨_, _, location, _, rfl, located, rest⟩ | ⟨_, wrong, _⟩ :=
    path_bind.mp path
  · obtain ⟨_, same⟩ := Comp.path_ret.mp located
    cases same
    obtain ⟨front, _, stored, middle, rfl, evaluated, rest⟩ |
      ⟨_, wrong, _⟩ := path_bind.mp rest
    · refine ⟨front, stored, middle, evaluated, ?_⟩
      obtain ⟨_, _, _, _, rfl, found, rest⟩ | ⟨_, wrong, _⟩ :=
        path_bind.mp rest
      · obtain ⟨_, same, rfl⟩ := path_pure.mp found
        cases same
        obtain ⟨_, _, _, _, rfl, checked, stores⟩ | ⟨_, wrong, _⟩ :=
          path_bind.mp rest
        · obtain ⟨rfl, _⟩ := path_checkBinding (path_relocate checked)
          obtain ⟨_, _, _, _, rfl, writes, declares⟩ | ⟨_, wrong, _⟩ :=
            path_bind.mp stores
          · cases path_write writes
            obtain ⟨_, _, _, _, rfl, declared, ends⟩ | ⟨_, wrong, _⟩ :=
              path_bind.mp declares
            · obtain ⟨_, _, rfl⟩ := path_pure.mp ends
              exact path_declareIn declared
            · cases wrong
          · cases wrong
        · cases wrong
      · cases wrong
    · cases wrong
  · cases wrong

/-- A direct store that the binding admits succeeds, and it gives the binding
the value. -/
theorem store_admitted {state : Interpreter} {id : Nat} {value : Value}
    (admits : state.Admits id value) (point : Point) :
    store point id [] value state = .ret (.ok (), written state id value) ∧
      ¬ Uninitialized (written state id value) id := by
  obtain ⟨binding, found, checked⟩ := admits
  have inside := (List.getElem?_eq_some_iff.mp found).1
  constructor
  · change (checkBinding point id value state).bind _ = _
    have checks : checkBinding point id value state = .ret (.ok (), state) := by
      change (Interp.binding id state).bind _ = _
      rw [Interp.binding, found]
      change check point binding.annotated value state = _
      rw [check, checked]
      rfl
    rw [checks]
    change write id value state = _
    rw [write, if_pos inside]
    rfl
  · rintro ⟨other, same, empty⟩
    simp only [written, List.getElem?_modify, found] at same
    cases same
    simp at empty

variable [Formatting]

/-- In a run of an accepted program no binding is reached before the
initializer of its `let` has executed, if whatever is about to be stored
directly in a binding that admits it finds the binding initialized.  Where it
does not, the store succeeds, and gives the binding its first value.  What a
`let` leaves in its slot is the value of its own initializer. -/
theorem run_waits_if_careful (host : Host effects) (clock identity : Nat)
    (limits : Limits) (program : Program) (choices : List Nat)
    (accepted : analyze program = []) :
    let notes := (runOf host clock identity limits program choices).shared.notes
    ((∀ note ∈ notes, note.Careful) → WaitsForInitializers notes) ∧
    (∀ point id value state,
      Observation.storing point id [] value state ∈ notes →
      state.Admits id value →
        store point id [] value state =
          .ret (.ok (), written state id value) ∧
        ¬ Uninitialized (written state id value) id) ∧
    ∀ clock point name value id env state events outcome final,
      (executeLet (evaluator clock) point name value (some id) env).Path state
        events (.ok outcome) final →
      ∃ front stored middle,
        ((evaluator clock).expression (0 :: point) value env).Path state front
          (.ok stored) middle ∧ final = written middle id stored := by
  intro notes
  refine ⟨fun careful => ?_, fun point _ _ _ _ admits =>
    store_admitted admits point, fun _ _ _ _ _ _ _ _ _ _ =>
      executeLet_stores⟩
  have within := runOf_anyHost True True accepted
    (.inl trivial : True ∨ 2 * limits.steps < clock) fun _ => careful
  exact Observation.Guarded.waits trivial
    fun note member => (within.shared.notes note member).1

omit [Formatting]

section Example

/-- A program that assigns a variable before its declaration executes. -/
def earlyProgram : Program := ⟨[
  .expression (.call (.identifier "early") []),
  .let "late" none (.integer 1),
  .function "early" [] none (.block [
    .expression (.assignment (.identifier "late") (.integer 5))])]⟩

/-- A program that initializes a variable before it is assigned. -/
def lateProgram : Program := ⟨[
  .let "late" none (.integer 1),
  .expression (.assignment (.identifier "late") (.integer 5))]⟩

/-- Whether a direct assignment has stored a value too early. -/
def Observation.early : Observation → Bool
  | .assigned _ _ _ id [] before (.ok _) _ =>
      (before.bindings[id]?.map fun binding => binding.value.isNone).getD false
  | _ => false

theorem Observation.early_reaches {note : Observation}
    {notes : List Observation} (early : note.early = true)
    (member : note ∈ notes) : ¬ WaitsForInitializers notes := by
  intro waits
  unfold Observation.early at early
  split at early
  · next point target env id before value after =>
      have waiting : Uninitialized before id := by
        cases found : before.bindings[id]? with
        | none => simp [found] at early
        | some binding => exact ⟨binding, found, by simpa [found] using early⟩
      exact (waits.assigns _ _ _ _ _ _ _ _ member waiting).1 value rfl
  · cases early

/-- A call before the declaration of a variable assigns it. -/
theorem early_assignment_runs :
    let _formatting : Formatting := plainFormatting
    analyze earlyProgram = [] ∧
      ¬ WaitsForInitializers (runOf (storingHost .null) 9 0 {} earlyProgram
        (List.replicate 60 0)).shared.notes := by
  intro _formatting
  refine ⟨by decide +kernel, ?_⟩
  have reached : (runOf (storingHost .null) 9 0 {} earlyProgram
      (List.replicate 60 0)).shared.notes.any Observation.early = true := by
    decide +kernel
  obtain ⟨note, member, early⟩ := List.any_eq_true.mp reached
  exact note.early_reaches early member

/-- Whether a binding is about to get its first value by an assignment. -/
def Observation.premature : Observation → Bool
  | .storing _ id [] _ state =>
      (state.bindings[id]?.map fun binding => binding.value.isNone).getD false
  | _ => false

theorem Observation.careful_of_mature {note : Observation}
    (mature : note.premature = false) : note.Careful := by
  unfold Observation.premature at mature
  split at mature
  · rintro _ _ ⟨binding, found, empty⟩
    simp [found, empty] at mature
  · next other =>
      unfold Observation.Careful
      split
      · next point id selectors value state =>
          cases selectors with
          | nil => exact absurd rfl (other point id value state)
          | cons selector rest => exact nofun
      · trivial

theorem run_waits_if_careful_late :
    let _formatting : Formatting := plainFormatting
    analyze lateProgram = [] ∧
      WaitsForInitializers (runOf (storingHost .null) 9 0 {} lateProgram
        (List.replicate 60 0)).shared.notes := by
  intro _formatting
  have accepted : analyze lateProgram = [] := by decide +kernel
  have mature : (runOf (storingHost .null) 9 0 {} lateProgram
      (List.replicate 60 0)).shared.notes.all
        (fun note => !note.premature) = true := by
    decide +kernel
  refine ⟨accepted, (run_waits_if_careful (storingHost .null) 9 0 {}
    lateProgram (List.replicate 60 0) accepted).1 fun note member => ?_⟩
  have checked := List.all_eq_true.mp mature note member
  exact Observation.careful_of_mature (by simpa using checked)

end Example

end NetLang
