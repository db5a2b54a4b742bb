import NetLang.Theory.Foreign
import NetLang.Theory.GuardedPrograms
import NetLang.Theory.Taking

/-!
# Jumps and panics in whole runs
-/

namespace NetLang

open Interp Guard

/-- The errors of a jump that nothing has taken. -/
def ErrorKind.strays : ErrorKind → Bool
  | .loopControlInFunction | .breakIteration | .returnIteration => true
  | .iteration _ kind => kind.strays
  | _ => false

/-- The error of a thread that has panicked, wherever it has been passed. -/
def ErrorKind.panicked : ErrorKind → Bool
  | .iterationPanicked _ => true
  | .iteration _ kind => kind.panicked
  | _ => false

theorem ErrorKind.Ordinary.strays {crashes : Prop} {kind : ErrorKind}
    (ordinary : kind.Ordinary crashes) : kind.strays = false := by
  induction kind with
  | iteration index kind induction => exact induction ordinary
  | loopControlInFunction => exact ordinary.elim
  | breakIteration => exact ordinary.elim
  | returnIteration => exact ordinary.elim
  | _ => rfl

theorem ErrorKind.Ordinary.panicked {crashes : Prop} {kind : ErrorKind}
    (ordinary : kind.Ordinary crashes) (never : ¬ crashes) :
    kind.panicked = false := by
  induction kind with
  | iteration index kind induction => exact induction ordinary
  | iterationPanicked index => exact absurd ordinary never
  | _ => rfl

/-- Why what is shown has stopped, if it has. -/
def Observation.stopped : Observation → Option Stop
  | .evaluating _ _ _ _ | .executing _ _ _ _ | .storing _ _ _ _ _
  | .entering _ _ _ => none
  | .evaluated _ _ _ _ (.error reason) _
  | .executed _ _ _ _ (.error reason) _
  | .returned _ _ (.error reason) _
  | .assigned _ _ _ _ _ _ (.error reason) _
  | .joined _ _ (.error reason) _ => some reason
  | .evaluated _ _ _ _ (.ok _) _ | .executed _ _ _ _ (.ok _) _
  | .returned _ _ (.ok _) _ | .assigned _ _ _ _ _ _ (.ok _) _
  | .joined _ _ (.ok _) _ => none

theorem Observation.Guarded.stops {guard : Guard} {note : Observation}
    {reason : Stop} (guarded : note.Guarded guard)
    (stopped : note.stopped = some reason) : guard.Stops reason := by
  cases note with
  | evaluating point node env state => cases stopped
  | executing point node env state => cases stopped
  | storing point id selectors value state => cases stopped
  | entering point node state => cases stopped
  | evaluated point node env before result after =>
      cases result with
      | ok value => cases stopped
      | error other =>
          cases stopped
          exact guarded.1 _ rfl
  | executed point node env before result after =>
      cases result with
      | ok value => cases stopped
      | error other =>
          cases stopped
          exact guarded.1 _ rfl
  | returned function before result after =>
      cases result with
      | ok value => cases stopped
      | error other =>
          cases stopped
          exact guarded.1 _ rfl
  | assigned point target env id selectors before result after =>
      cases result with
      | ok value => cases stopped
      | error other =>
          cases stopped
          exact guarded.1 _ rfl
  | joined point before result after =>
      cases result with
      | ok value => cases stopped
      | error other =>
          cases stopped
          exact guarded.1 _ rfl

/-- Any constructor may be evaluated. -/
theorem Observation.constructs (note : Observation) :
    note.Constructs fun _ _ => True := by
  unfold Observation.Constructs
  split <;> trivial

/-- Nothing is assumed of the host. -/
def Guard.anyHost (types : TypeRegistry) (short careful : Prop) : Guard where
  types := types
  constructs := fun _ _ => True
  records := ⟨types.identity, fun _ _ => True⟩
  batches := True
  crashes := True
  short := short
  careful := careful
  identity := rfl
  declared := fun _ _ _ _ _ _ _ => trivial
  updates := fun _ _ _ => trivial
  foreign := fun _ => trivial

section Runs

variable [Formatting]

/-- A run under any host keeps the invariant, if it is as careful as it is
taken to be. -/
theorem runOf_anyHost (short careful : Prop) {host : Host effects}
    {clock identity : Nat} {limits : Limits} {program : Program}
    {choices : List Nat} (accepted : analyze program = [])
    (fueled : short ∨ 2 * limits.steps < clock)
    (assumed : careful → ∀ note ∈ (runOf host clock identity limits program
      choices).shared.notes, note.Careful) :
    (runOf host clock identity limits program choices).Within
      (Guard.anyHost (.new identity program) short careful).ledger
      (fun outcome _ => (Guard.anyHost (.new identity program) short
        careful).Settled outcome.1) := by
  have honors : (setup host).Honors (Guard.anyHost (.new identity program)
      short careful).ledger :=
    setup_honors (fun _ _ _ _ _ _ _ _ _ _ => trivial) fun _ _ _ => trivial
  have enough : (Guard.anyHost (.new identity program) short careful).Fueled
      limits.steps clock := fueled
  exact runOf_within (analyze_tame accepted) rfl trivial enough honors choices
    fun note member => ⟨fun holds => assumed holds note member, note.constructs⟩

end Runs

end NetLang
