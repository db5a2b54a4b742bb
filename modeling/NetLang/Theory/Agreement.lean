import NetLang.Semantic.Visits
import NetLang.Theory.ScopedPrograms

/-!
# Agreement of the analyzer and the interpreter

What the analysis of a program says about every run of it: the environments
match the scopes, and the errors about names, calls and function bindings are
those that the analysis leaves to the run.
-/

namespace NetLang

open Interp

/-- The kind of an error, wherever it has been passed. -/
def ErrorKind.root : ErrorKind → ErrorKind
  | .iteration _ kind => kind.root
  | kind => kind

/-- What is about to be executed, and where. -/
def Observation.entered : Observation →
    Option (Point × Node × Environment × Interpreter)
  | .evaluating point node env state =>
      some (point, .expression node, env, state)
  | .executing point node env state =>
      some (point, .statement node, env, state)
  | .storing _ _ _ _ _ | .entering _ _ _ | .evaluated _ _ _ _ _ _
  | .executed _ _ _ _ _ _ | .returned _ _ _ _ | .assigned _ _ _ _ _ _ _ _
  | .joined _ _ _ _ => none

/-- Neither a part of a run nor the run as a whole has failed with such an
error. -/
def NeverFails (machine : Machine effects Ending)
    (failure : RuntimeError → Prop) : Prop :=
  (∀ note ∈ machine.shared.notes, ∀ error,
    note.stopped = some (.error error) → ¬ failure error) ∧
  ∀ error state, machine.result? = some (.error (.error error), state) →
    ¬ failure error

/-- The call of a name that the analyzer knows to be a function. -/
def Visit.CallsFunction (visit : Visit) : Prop :=
  ∃ callee arguments, visit.node = .expression (.call callee arguments) ∧
    (Analyzer.calleeArity visit.static callee.unspanned).isSome

/-- The analysis has visited an assignment. -/
def Analyzer.Assigns (final : Analyzer) (static : Static)
    (target : Expr) : Prop :=
  ∃ point value,
    final.Visited static point (.expression (.assignment target value))

/-- No assignment has the name of a function at its root. -/
def Program.KeepsFunctions (program : Program) : Prop :=
  ∀ static target name, (analysis 0 program).Assigns static target →
    Analyzer.rootOf target = .identifier name →
    Analyzer.isImmutable static name = false

/-- No assignment to a property or an index has the name of a function at its
root. -/
def Program.KeepsFunctionPaths (program : Program) : Prop :=
  ∀ static target name, (analysis 0 program).Assigns static target →
    target.unspanned.identifier? = none →
    Analyzer.rootOf target = .identifier name →
    Analyzer.isImmutable static name = false

section Notes

variable {final : Analyzer} {note : Observation} {point : Point}

theorem Observation.Scoped.settles (known : note.Scoped final)
    {error : RuntimeError} (stopped : note.stopped = some (.error error)) :
    final.Explains error.origin error.kind := by
  cases note with
  | evaluating point node env state => cases stopped
  | executing point node env state => cases stopped
  | storing point id selectors value state => cases stopped
  | entering point body state => cases stopped
  | evaluated point node env before result after =>
      cases result with
      | ok value => cases stopped
      | error reason =>
          cases stopped
          exact known _ rfl
  | executed point node env before result after =>
      cases result with
      | ok value => cases stopped
      | error reason =>
          cases stopped
          exact known _ rfl
  | returned function before result after =>
      cases result with
      | ok value => cases stopped
      | error reason =>
          cases stopped
          exact known _ rfl
  | assigned point target env id selectors before result after =>
      cases result with
      | ok value => cases stopped
      | error reason =>
          cases stopped
          exact known _ rfl
  | joined point before result after =>
      cases result with
      | ok value => cases stopped
      | error reason =>
          cases stopped
          exact known _ rfl

theorem Observation.Scoped.knows (known : note.Scoped final)
    {node : Node} {env : Environment} {state : Interpreter}
    (entered : note.entered = some (point, node, env, state)) :
    final.Knows point node env state := by
  cases note with
  | evaluating point node env state =>
      cases entered
      exact known
  | executing point node env state =>
      cases entered
      exact known
  | _ => cases entered

theorem Analyzer.Explains.root {kind : ErrorKind}
    (explained : final.Explains point kind) :
    final.Explains point kind.root := by
  induction kind with
  | iteration index kind induction => exact induction explained
  | _ => exact explained

end Notes

section Analyses

variable {program : Program}

/-- An accepted program has no reports. -/
theorem analyze_unreported (accepted : analyze program = [])
    (kind : SemanticErrorKind) : ¬ (analysis 0 program).Reports kind := by
  rintro ⟨report, member, same⟩
  have found : report.error ∈ analyze program :=
    List.mem_map_of_mem member
  rw [accepted] at found
  cases found

theorem analyze_single
    (single : ∀ error ∈ analyze program, error.kind ≠ .duplicateDeclaration) :
    ¬ (analysis 0 program).Reports .duplicateDeclaration := by
  rintro ⟨report, member, same⟩
  exact single report.error (List.mem_map_of_mem member) same

/-- Two visits at one point are the same. -/
theorem visit_unique {visit other : Visit}
    (first : visit ∈ (analysis 0 program).visits)
    (second : other ∈ (analysis 0 program).visits)
    (same : visit.point = other.point) : visit = other :=
  List.inj_on_of_nodup_map (analysis_adds 0 program).1 first second same

theorem visit_point_ne {visit : Visit}
    (member : visit ∈ (analysis 0 program).visits) : visit.point ≠ [] := by
  obtain ⟨i, _, below⟩ := ((analysis_adds 0 program).2 visit member).1
  intro same
  rw [same] at below
  have length := below.length_le
  simp at length

/-- An assigned name that is immutable was reported. -/
theorem assigns_direct {static : Static} {target : Expr} {name : String}
    (assigns : (analysis 0 program).Assigns static target)
    (direct : target.unspanned.identifier? = some name)
    (immutable : Analyzer.isImmutable static name = true) :
    (analysis 0 program).Reports .immutableAssignment := by
  obtain ⟨point, value, visited⟩ := assigns
  have covers := ((analysis_adds 0 program).2 _ visited).2
  obtain ⟨_, named, _, _⟩ := Analyzer.covers_assignment covers
  exact Analyzer.covers_checkMutable (named name direct).2 immutable

theorem rootOf_direct {target : Expr} {name : String}
    (direct : target.unspanned.identifier? = some name) :
    Analyzer.rootOf target = .identifier name := by
  induction target using Expr.unspanned.induct with
  | case1 span inner induction =>
      exact induction direct
  | case2 target bare =>
      have same : target.unspanned = target := by
        cases target with
        | located span inner => exact absurd rfl (bare span inner)
        | _ => rfl
      rw [same] at direct
      cases target with
      | identifier other =>
          cases direct
          rfl
      | _ => cases direct

/-- In an accepted program only paths may have the name of a function at
their root. -/
theorem keepsFunctions_iff (accepted : analyze program = []) :
    program.KeepsFunctions ↔ program.KeepsFunctionPaths := by
  constructor
  · intro keeps static target name assigns _ root
    exact keeps static target name assigns root
  · intro keeps static target name assigns root
    cases direct : target.unspanned.identifier? with
    | none => exact keeps static target name assigns direct root
    | some other =>
        have same := root.symm.trans (rootOf_direct direct)
        cases same
        have unreported := analyze_unreported accepted .immutableAssignment
        cases immutable : Analyzer.isImmutable static name with
        | false => rfl
        | true =>
            exact absurd (assigns_direct assigns direct immutable) unreported

end Analyses

section Runs

variable [Formatting] {host : Host effects} {clock identity : Nat}
  {limits : Limits} {program : Program} {choices : List Nat}

/-- Whatever fails in a run is explained by the analysis. -/
theorem run_neverFails {failure : RuntimeError → Prop}
    (single : ¬ (analysis 0 program).Reports .duplicateDeclaration)
    (never : ∀ error, (analysis 0 program).Explains error.origin
      error.kind.root → ¬ failure error) :
    NeverFails (runOf host clock identity limits program choices)
      failure := by
  have safe := runOf_scoped host clock identity limits choices single
  constructor
  · intro note member error stopped
    have known : note.Scoped (analysis 0 program) :=
      safe.shared.notes note member
    exact never error (known.settles stopped).root
  · intro error state ended
    exact never error (safe.result ended error rfl).root

/-- In every run of a program without duplicate declarations the analyzer and
the interpreter agree on names.  Whatever is executed was analyzed once, where
the scopes had the names of the environment level by level and each symbol
said what its binding is.  If the program is accepted, no name is undefined,
and no call of a name that the analyzer knows to be a function has another
number of arguments than its parameters. -/
theorem run_matches_scopes (host : Host effects) (clock identity : Nat)
    (limits : Limits) (program : Program) (choices : List Nat)
    (single : ∀ error ∈ analyze program,
      error.kind ≠ .duplicateDeclaration) :
    let machine := runOf host clock identity limits program choices
    let visits := (analysis 0 program).visits
    (∀ note ∈ machine.shared.notes, ∀ point node env state,
      note.entered = some (point, node, env, state) →
        ∃ static, ⟨point, node, static⟩ ∈ visits ∧
          Agrees static env state ∧
          ∀ visit ∈ visits, visit.point = point →
            visit = ⟨point, node, static⟩) ∧
    (analyze program = [] →
      (NeverFails machine fun error =>
        ∃ name, error.kind.root = .undefinedName name) ∧
      ∀ visit ∈ visits, visit.CallsFunction →
        NeverFails machine fun error => error.origin = visit.point ∧
          ∃ name expected given,
            error.kind.root = .argumentCount name expected given) := by
  intro machine visits
  have single := analyze_single single
  have safe := runOf_scoped host clock identity limits choices single
  refine ⟨?_, fun accepted => ⟨?_, ?_⟩⟩
  · intro note member point node env state entered
    have known : note.Scoped (analysis 0 program) :=
      safe.shared.notes note member
    obtain ⟨static, visited, fits⟩ := known.knows entered
    exact ⟨static, visited, fits, fun visit other same =>
      visit_unique other visited same⟩
  · apply run_neverFails single
    intro error explained
    rintro ⟨name, same⟩
    rw [same] at explained
    exact analyze_unreported accepted _ explained
  · intro visit member known
    apply run_neverFails single
    intro error explained
    rintro ⟨here, name, expected, given, same⟩
    rw [same, here] at explained
    rcases explained with reported | top | unknown
    · exact analyze_unreported accepted _ reported
    · exact visit_point_ne member top
    · obtain ⟨static, callee, arguments, visited, missing⟩ := unknown
      have equal := visit_unique member visited rfl
      obtain ⟨other, others, node, arity⟩ := known
      rw [equal] at node arity
      cases node
      simp [missing] at arity

/-- An accepted program never assigns the binding of a function exactly if it
assigns no property and no index of one. -/
theorem run_keeps_functions_iff (program : Program)
    (accepted : analyze program = []) :
    (program.KeepsFunctions ∧
      ∀ (host : Host effects) (clock identity : Nat) (limits : Limits)
        (choices : List Nat),
        NeverFails (runOf host clock identity limits program choices)
          fun error => error.kind.root = .functionAssignment) ↔
      program.KeepsFunctionPaths := by
  have unreported := analyze_unreported accepted
  constructor
  · intro kept
    exact (keepsFunctions_iff accepted).mp kept.1
  · intro keeps
    refine ⟨(keepsFunctions_iff accepted).mpr keeps, ?_⟩
    intro host clock identity limits choices
    apply run_neverFails (unreported _)
    intro error explained same
    rw [same] at explained
    rcases explained with reported | path
    · exact unreported _ reported
    · obtain ⟨static, target, value, name, visited, bare, root, fixed⟩ := path
      have free := keeps static target name ⟨_, value, visited⟩ bare root
      rw [free] at fixed
      cases fixed

end Runs

section Example

/-- A program that calls a function of an iteration from inside of it. -/
def namesProgram : Program := ⟨[
  .parallel "item" (.array [.integer 1]) (.block [
    .function "twice" [⟨"value", none⟩] none (.return (some
      (.binary (.identifier "value") .add (.identifier "item")))),
    .expression (.call (.identifier "twice") [.integer 2])])]⟩

theorem run_matches_scopes_iteration :
    let _formatting : Formatting := plainFormatting
    analyze namesProgram = [] ∧
      NeverFails (runOf (storingHost .null) 9 0 {} namesProgram
        (List.replicate 60 0)) fun error =>
          ∃ name, error.kind.root = .undefinedName name := by
  intro _formatting
  have accepted : analyze namesProgram = [] := by decide +kernel
  have single : ∀ error ∈ analyze namesProgram,
      error.kind ≠ .duplicateDeclaration := by
    simp [accepted]
  exact ⟨accepted, ((run_matches_scopes (storingHost .null) 9 0 {}
    namesProgram (List.replicate 60 0) single).2 accepted).1⟩

/-- A program that assigns a property of a built-in function. -/
def propertyProgram : Program := ⟨[
  .expression (.assignment (.property (.identifier "print") "x")
    (.integer 1))]⟩

/-- The note of an assignment to the binding of a function. -/
def Observation.rebinds (note : Observation) : Bool :=
  match note.stopped with
  | some (.error error) => decide (error.kind.root = .functionAssignment)
  | _ => false

theorem Observation.rebinds_iff {note : Observation} :
    note.rebinds = true ↔ ∃ error, note.stopped = some (.error error) ∧
      error.kind.root = .functionAssignment := by
  cases stopped : note.stopped with
  | none => simp [Observation.rebinds, stopped]
  | some reason => cases reason <;> simp [Observation.rebinds, stopped]

/-- A path into a function is accepted, and its assignment fails. -/
theorem property_assignment_fails :
    let _formatting : Formatting := plainFormatting
    analyze propertyProgram = [] ∧
      ¬ NeverFails (runOf (storingHost .null) 9 0 {} propertyProgram
        (List.replicate 30 0)) fun error =>
          error.kind.root = .functionAssignment := by
  intro _formatting
  refine ⟨by decide +kernel, ?_⟩
  have reached : (runOf (storingHost .null) 9 0 {} propertyProgram
      (List.replicate 30 0)).shared.notes.any Observation.rebinds = true := by
    decide +kernel
  obtain ⟨note, member, rebinds⟩ := List.any_eq_true.mp reached
  obtain ⟨error, stopped, same⟩ := Observation.rebinds_iff.mp rebinds
  intro never
  exact never.1 note member error stopped same

/-- A program that assigns variables, a path into one, and a loop variable
that has the name of a function. -/
def assigningProgram : Program := ⟨[
  .function "name" [] none (.block []),
  .let "pair" none (.object [("left", .integer 1)]),
  .expression (.assignment (.property (.identifier "pair") "left")
    (.integer 2)),
  .for "name" (.array [.object [("x", .integer 1)]]) (.block [
    .expression (.assignment (.property (.identifier "name") "x")
      (.integer 3)),
    .expression (.assignment (.identifier "name") (.integer 4))]),
  .let "count" none (.integer 0),
  .expression (.assignment (.identifier "count") (.integer 1))]⟩

/-- A visit that is not that of a path into a function. -/
def Visit.keepsFunctions (visit : Visit) : Bool :=
  match visit.node with
  | .expression (.assignment target _) =>
      match Analyzer.rootOf target with
      | .identifier name => target.unspanned.identifier?.isSome ||
          !Analyzer.isImmutable visit.static name
      | _ => true
  | _ => true

theorem Program.keepsFunctionPaths_of_visits {program : Program}
    (checked : (analysis 0 program).visits.all Visit.keepsFunctions = true) :
    program.KeepsFunctionPaths := by
  rintro static target name ⟨point, value, visited⟩ path root
  have keeps := List.all_eq_true.mp checked _ visited
  simpa [Visit.keepsFunctions, root, path] using keeps

theorem run_keeps_functions_iff_assigning :
    let _formatting : Formatting := plainFormatting
    analyze assigningProgram = [] ∧ assigningProgram.KeepsFunctions ∧
      ∀ (host : Host effects) (clock identity : Nat) (limits : Limits)
        (choices : List Nat),
        NeverFails (runOf host clock identity limits assigningProgram choices)
          fun error => error.kind.root = .functionAssignment := by
  intro _formatting
  have accepted : analyze assigningProgram = [] := by decide +kernel
  have paths : assigningProgram.KeepsFunctionPaths :=
    Program.keepsFunctionPaths_of_visits (by decide +kernel)
  exact ⟨accepted,
    (run_keeps_functions_iff assigningProgram accepted).mpr paths⟩

end Example

end NetLang
