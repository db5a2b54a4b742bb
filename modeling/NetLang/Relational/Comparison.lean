import NetLang.Library.Simulation
import NetLang.Relational.Operations
import NetLang.Interpreter.Execute

/-!
# Related states

Two executions are compared: one of a program, the left one, and one of a
rewriting of it.  A world says which arena slots and which function handles
of the two correspond; it grows with the arenas.
-/

namespace NetLang

/-- What distinguishes the right execution from the left one. -/
structure Comparison where
  rewriting : Rewriting
  strict : Bool
  sameLimits : Bool
  token : Nat → Nat → Prop
  lenient : strict = false → rewriting.annotations = false ∧
    rewriting.parallel = false ∧ sameLimits = true

structure World where
  slot : Nat → Nat → Prop
  handle : Nat → Nat → Prop

namespace World

structure Extends (smaller larger : World) : Prop where
  slot : ∀ {a a'}, smaller.slot a a' → larger.slot a a'
  handle : ∀ {a a'}, smaller.handle a a' → larger.handle a a'

theorem Extends.refl (world : World) : world.Extends world :=
  ⟨id, id⟩

theorem Extends.trans {first second third : World}
    (left : first.Extends second) (right : second.Extends third) :
    first.Extends third :=
  ⟨right.slot ∘ left.slot, right.handle ∘ left.handle⟩

def withSlot (world : World) (a a' : Nat) : World :=
  ⟨fun b b' => world.slot b b' ∨ b = a ∧ b' = a', world.handle⟩

def withHandle (world : World) (a a' : Nat) : World :=
  ⟨world.slot, fun b b' => world.handle b b' ∨ b = a ∧ b' = a'⟩

theorem extends_withSlot (world : World) (a a' : Nat) :
    world.Extends (world.withSlot a a') :=
  ⟨.inl, id⟩

theorem extends_withHandle (world : World) (a a' : Nat) :
    world.Extends (world.withHandle a a') :=
  ⟨id, .inl⟩

end World

/-- The nesting of expressions, whether a `return` may be met, and whether
the left execution is that of a worker. -/
structure Situation where
  depth : Nat
  returns : Bool
  worker : Bool
deriving DecidableEq

namespace Comparison

variable (comparison : Comparison) {world larger : World}

abbrev serial : Bool :=
  comparison.rewriting.parallel

def matching (world : World) : Matching :=
  ⟨world.handle, comparison.token⟩

/-- The annotation that the right execution has. -/
def keep (annotated : Option ResolvedType) : Option ResolvedType :=
  if comparison.rewriting.annotations then none else annotated

@[simp] theorem keep_none : comparison.keep none = none := by
  simp [keep]

theorem matching_mono (extends' : world.Extends larger) :
    (comparison.matching world).Extends (comparison.matching larger) :=
  ⟨extends'.handle, id⟩

end Comparison

def ScopeRel (world : World) : NameMap Nat → NameMap Nat → Prop :=
  List.Forall₂ fun entry entry' =>
    entry.1 = entry'.1 ∧ world.slot entry.2 entry'.2

def EnvRel (world : World) : Environment → Environment → Prop :=
  List.Forall₂ (ScopeRel world)

structure BindingRel (comparison : Comparison) (world : World)
    (left right : Binding) : Prop where
  mutable : right.mutable = left.mutable
  annotated : right.annotated = comparison.keep left.annotated
  value : Option.Rel (Value.Rel (comparison.matching world)) left.value
    right.value

namespace Stmt

mutual

/-- A `return` that leaves a parallel body has no serial counterpart. -/
def Fits (serial : Bool) : Bool → Stmt → Prop
  | returns, .return _ => returns = true
  | returns, .located _ inner => Fits serial returns inner
  | returns, .parallel _ _ body => Fits serial (returns && !serial) body
  | returns, .match _ arms => FitsArms serial returns arms
  | returns, .block list => FitsList serial returns list
  | returns, .if _ thenBranch elseBranch =>
      Fits serial returns thenBranch ∧ FitsOption serial returns elseBranch
  | returns, .while _ body => Fits serial returns body
  | returns, .for _ _ body => Fits serial returns body
  | _, .function _ _ _ body => Fits serial true body
  | _, .type _ _ | _, .break | _, .continue | _, .let _ _ _
  | _, .expression _ => True

def FitsOption (serial returns : Bool) : Option Stmt → Prop
  | none => True
  | some node => Fits serial returns node

def FitsList (serial returns : Bool) : List Stmt → Prop
  | [] => True
  | node :: rest => Fits serial returns node ∧ FitsList serial returns rest

def FitsArms (serial returns : Bool) : List (Pattern × Stmt) → Prop
  | [] => True
  | (_, body) :: rest =>
      Fits serial returns body ∧ FitsArms serial returns rest

end

end Stmt

structure FunctionRel (comparison : Comparison) (world : World)
    (left right : Function) : Prop where
  name : right.name = left.name
  parameters :
    right.parameters = left.parameters.map comparison.rewriting.parameter
  returnType : right.returnType = comparison.keep left.returnType
  body : right.body = comparison.rewriting.stmt left.body
  fits : left.body.Fits comparison.serial true
  closure : EnvRel world left.closure right.closure
  point : right.point = left.point

/-- The right execution may have more room. -/
structure LimitsRel (same : Bool) (left right : Limits) : Prop where
  callDepth : left.callDepth ≤ right.callDepth
  expressionDepth : left.expressionDepth ≤ right.expressionDepth
  output : left.parallelOutputBytes ≤ right.parallelOutputBytes
  equal : same = true → right = left
  workers : same = false →
    1 ≤ left.parallelWorkers ∧ 1 ≤ right.parallelWorkers

structure BufferRel (same : Bool) (left right : WorkerBuffer) : Prop where
  output : right.output = left.output
  outputBytes : right.outputBytes = left.outputBytes
  limit : left.outputLimit ≤ right.outputLimit
  equal : same = true → right.outputLimit = left.outputLimit

/-- A serial execution prints as it goes; otherwise the hosts correspond. -/
def RuntimeRel (comparison : Comparison) (left right : RuntimeState) : Prop :=
  if comparison.serial then right.buffer = none
  else right.host = left.host ∧ right.forks = left.forks ∧
    Option.Rel (BufferRel comparison.sameLimits) left.buffer right.buffer

/-- Without serialization, slots and handles are the same on both sides.
With serialization, related handles are those of defined functions, nothing is
captured on the right, and the right execution is that of no worker. -/
structure States (comparison : Comparison) (situation : Situation)
    (world : World) (left right : Interpreter) : Prop where
  types : TypesAgree comparison.rewriting (comparison.matching world)
    left.types right.types
  limits : LimitsRel comparison.sameLimits left.limits right.limits
  callStack : right.callStack = left.callStack
  depth : left.expressionDepth = situation.depth
  depth' : right.expressionDepth = situation.depth
  returnType : situation.returns = true →
    right.returnType = comparison.keep left.returnType
  runtime : RuntimeRel comparison left.runtime right.runtime
  worker : left.inParallelWorker = situation.worker
  buffer : left.runtime.buffer.isSome = situation.worker
  bindings : ∀ {a a'}, world.slot a a' → ∃ b b',
    left.bindings[a]? = some b ∧ right.bindings[a']? = some b' ∧
      BindingRel comparison world b b'
  functions : ∀ {a a'}, world.handle a a' →
    Option.Rel (FunctionRel comparison world) left.functions[a]?
      right.functions[a']?
  slots : ∀ {a b a' b'}, world.slot a a' → world.slot b b' →
    (a = b ↔ a' = b')
  faithful : (comparison.matching world).Faithful
  lengths : comparison.serial = false →
    right.bindings.length = left.bindings.length ∧
      right.functions.length = left.functions.length
  slot : comparison.serial = false → ∀ {a a'}, world.slot a a' → a = a'
  handle : comparison.serial = false →
    ∀ {a a'}, world.handle a a' ↔ a = a'
  defined : comparison.serial = true → ∀ {a a'}, world.handle a a' →
    a < left.functions.length ∧ a' < right.functions.length
  captured : right.capturedBindings =
    if comparison.serial then 0 else left.capturedBindings
  inWorker : comparison.serial = false →
    right.inParallelWorker = left.inParallelWorker
  alone : comparison.serial = true → right.snapshot = none

section Mono

variable {comparison : Comparison} {world larger : World}

theorem ScopeRel.mono (extends' : world.Extends larger)
    {left right : NameMap Nat} (related : ScopeRel world left right) :
    ScopeRel larger left right :=
  related.imp fun _ _ both => ⟨both.1, extends'.slot both.2⟩

theorem EnvRel.mono (extends' : world.Extends larger)
    {left right : Environment} (related : EnvRel world left right) :
    EnvRel larger left right :=
  related.imp fun _ _ => ScopeRel.mono extends'

theorem BindingRel.mono (extends' : world.Extends larger)
    {left right : Binding} (related : BindingRel comparison world left right) :
    BindingRel comparison larger left right :=
  ⟨related.mutable, related.annotated, optionRel_mono related.value
    fun _ _ => Value.Rel.mono (comparison.matching_mono extends')⟩

theorem FunctionRel.mono (extends' : world.Extends larger)
    {left right : Function}
    (related : FunctionRel comparison world left right) :
    FunctionRel comparison larger left right :=
  ⟨related.name, related.parameters, related.returnType, related.body,
    related.fits, related.closure.mono extends', related.point⟩

theorem ScopeRel.get? {left right : NameMap Nat}
    (related : ScopeRel world left right) (name : String) :
    Option.Rel world.slot (NameMap.get? left name)
      (NameMap.get? right name) := by
  induction related with
  | nil => exact .none
  | @cons entry entry' rest rest' head tail induction =>
      obtain ⟨key, id⟩ := entry
      obtain ⟨key', id'⟩ := entry'
      obtain ⟨same, slot⟩ := head
      cases (same : key = key')
      unfold NameMap.get? at induction ⊢
      rw [List.lookup_cons, List.lookup_cons]
      cases name == key
      · exact induction
      · exact .some slot

theorem EnvRel.resolve {left right : Environment}
    (related : EnvRel world left right) (name : String) :
    Option.Rel world.slot (left.resolve name) (right.resolve name) := by
  induction related with
  | nil => exact .none
  | cons head tail induction =>
      unfold Environment.resolve at induction ⊢
      rw [List.findSome?_cons, List.findSome?_cons]
      obtain ⟨missing, missing'⟩ | ⟨id, id', found, found', slot⟩ :=
        optionRel_cases (head.get? name)
      · rw [missing, missing']
        exact induction
      · rw [found, found']
        exact .some slot

theorem ScopeRel.insert {left right : NameMap Nat}
    (related : ScopeRel world left right) (name : String) {id id' : Nat}
    (slot : world.slot id id') :
    ScopeRel world (NameMap.insert left name id)
      (NameMap.insert right name id') :=
  .cons ⟨rfl, slot⟩ related

theorem EnvRel.declare {left right : Environment}
    (related : EnvRel world left right) (name : String) {id id' : Nat}
    (slot : world.slot id id') :
    Option.Rel (EnvRel world) (left.declare name id)
      (right.declare name id') := by
  cases related with
  | nil => exact .none
  | cons head tail => exact .some (.cons (head.insert name slot) tail)

end Mono

end NetLang
