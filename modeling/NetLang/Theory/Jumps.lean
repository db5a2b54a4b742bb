import NetLang.Interpreter.State

/-!
# Jumps

A jump leaves statements until something takes it: a loop takes `break` and
`continue`, an iteration of a parallel statement takes `continue`, and a call
takes `return`.  A statement is tame if every jump in it that would reach the
body of a function or of a parallel statement is taken there.
-/

namespace NetLang

inductive Jump where
  | «break» | «continue» | «return»
deriving DecidableEq, Repr

namespace Stmt

mutual

/-- The jumps that may leave a statement. -/
def jumps : Stmt → List Jump
  | .break => [.break]
  | .continue => [.continue]
  | .return _ => [.return]
  | .located _ inner => inner.jumps
  | .block list => jumpsOf list
  | .if _ thenBranch elseBranch =>
      thenBranch.jumps ++ optionalJumps elseBranch
  | .while _ body | .for _ _ body => body.jumps.filter (· = .return)
  | .match _ arms => armJumps arms
  | .type _ _ | .let _ _ _ | .expression _ | .function _ _ _ _
  | .parallel _ _ _ => []

def jumpsOf : List Stmt → List Jump
  | [] => []
  | node :: rest => node.jumps ++ jumpsOf rest

def optionalJumps : Option Stmt → List Jump
  | none => []
  | some node => node.jumps

def armJumps : List (Pattern × Stmt) → List Jump
  | [] => []
  | (_, body) :: rest => body.jumps ++ armJumps rest

end

mutual

/-- Only `return` reaches the body of a function, and only `continue` that of
a parallel statement. -/
def Tame : Stmt → Prop
  | .located _ inner => inner.Tame
  | .function _ _ _ body => (∀ jump ∈ body.jumps, jump = .return) ∧ body.Tame
  | .parallel _ _ body => (∀ jump ∈ body.jumps, jump = .continue) ∧ body.Tame
  | .block list => TameAll list
  | .if _ thenBranch elseBranch => thenBranch.Tame ∧ TameOptional elseBranch
  | .while _ body | .for _ _ body => body.Tame
  | .match _ arms => TameArms arms
  | .type _ _ | .let _ _ _ | .expression _ | .break | .continue
  | .return _ => True

def TameAll : List Stmt → Prop
  | [] => True
  | node :: rest => node.Tame ∧ TameAll rest

def TameOptional : Option Stmt → Prop
  | none => True
  | some node => node.Tame

def TameArms : List (Pattern × Stmt) → Prop
  | [] => True
  | (_, body) :: rest => body.Tame ∧ TameArms rest

end

@[simp] theorem unspanned_unspanned : ∀ node : Stmt,
    node.unspanned.unspanned = node.unspanned
  | .located _ inner => unspanned_unspanned inner
  | .type _ _ | .break | .continue | .parallel _ _ _ | .match _ _
  | .let _ _ _ | .expression _ | .block _ | .if _ _ _ | .while _ _
  | .for _ _ _ | .function _ _ _ _ | .return _ => rfl

@[simp] theorem unspanned_jumps : ∀ node : Stmt,
    node.unspanned.jumps = node.jumps
  | .located _ inner => by
      rw [unspanned, jumps, unspanned_jumps inner]
  | .type _ _ | .break | .continue | .parallel _ _ _ | .match _ _
  | .let _ _ _ | .expression _ | .block _ | .if _ _ _ | .while _ _
  | .for _ _ _ | .function _ _ _ _ | .return _ => rfl

@[simp] theorem unspanned_tame : ∀ node : Stmt,
    node.unspanned.Tame ↔ node.Tame
  | .located _ inner => by
      rw [unspanned, Tame, unspanned_tame inner]
  | .type _ _ | .break | .continue | .parallel _ _ _ | .match _ _
  | .let _ _ _ | .expression _ | .block _ | .if _ _ _ | .while _ _
  | .for _ _ _ | .function _ _ _ _ | .return _ => Iff.rfl

theorem mem_jumpsOf {list : List Stmt} {jump : Jump} :
    jump ∈ jumpsOf list ↔ ∃ node ∈ list, jump ∈ node.jumps := by
  induction list with
  | nil => simp [jumpsOf]
  | cons node rest induction => simp [jumpsOf, induction]

theorem tameAll_iff {list : List Stmt} :
    TameAll list ↔ ∀ node ∈ list, node.Tame := by
  induction list with
  | nil => simp [TameAll]
  | cons node rest induction => simp [TameAll, induction]

end Stmt

/-- The jump that a flow is, if it is one. -/
def Flow.jump? : Flow → Option Jump
  | .normal => none
  | .break => some .break
  | .continue => some .continue
  | .return _ => some .return

/-- A flow is normal or one of the given jumps. -/
def Flow.Among (jumps : List Jump) (flow : Flow) : Prop :=
  ∀ jump, flow.jump? = some jump → jump ∈ jumps

theorem Flow.normal_among (jumps : List Jump) : Flow.normal.Among jumps :=
  nofun

theorem Flow.Among.mono {jumps more : List Jump} {flow : Flow}
    (among : flow.Among jumps) (subset : jumps ⊆ more) : flow.Among more :=
  fun jump same => subset (among jump same)

theorem Flow.Among.normal {flow : Flow} (among : flow.Among []) :
    flow = .normal := by
  cases flow with
  | normal => rfl
  | «break» => cases among .break rfl
  | «continue» => cases among .continue rfl
  | «return» value => cases among .return rfl

/-- What the rest of a loop sees of a body that returned. -/
theorem Flow.Among.loop {jumps : List Jump} {value : Value}
    (among : (Flow.return value).Among jumps) :
    (Flow.return value).Among (jumps.filter (· = .return)) := by
  intro jump same
  cases same
  simpa using among .return rfl

/-- The errors that a program accepted by the analyzer may raise.  Without a
panic of the host no iteration panics. -/
def ErrorKind.Ordinary (crashes : Prop) : ErrorKind → Prop
  | .loopControlInFunction | .breakIteration | .returnIteration => False
  | .iterationPanicked _ => crashes
  | .iteration _ kind => kind.Ordinary crashes
  | _ => True

end NetLang
