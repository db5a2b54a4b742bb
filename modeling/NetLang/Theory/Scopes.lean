import NetLang.Semantic.Covered
import NetLang.Theory.Frame
import NetLang.Theory.Plain

/-!
# Scopes of the analyzer and environments of the interpreter

An environment matches the scopes of the analyzer if, level by level, it has
the same names and each binding is what the symbol of its name says.  Arenas
only grow, so an environment matches for as long as its interpreter runs.
-/

namespace NetLang

open Interp Discipline

/-- The arenas have only grown. -/
structure ArenasKept (before after : Interpreter) : Prop where
  types : after.types = before.types
  bindings : BindingsKept 0 before.bindings after.bindings
  functions : before.functions <+: after.functions

theorem ArenasKept.refl (state : Interpreter) : ArenasKept state state :=
  ⟨rfl, .refl _ _, List.prefix_rfl⟩

theorem ArenasKept.trans {first second third : Interpreter}
    (before : ArenasKept first second) (after : ArenasKept second third) :
    ArenasKept first third :=
  ⟨after.types.trans before.types, before.bindings.trans after.bindings,
    before.functions.trans after.functions⟩

/-- The types and the arenas are the same. -/
structure SameArenas (before after : Interpreter) : Prop where
  types : after.types = before.types
  bindings : after.bindings = before.bindings
  functions : after.functions = before.functions

theorem SameArenas.refl (state : Interpreter) : SameArenas state state :=
  ⟨rfl, rfl, rfl⟩

theorem SameArenas.trans {first second third : Interpreter}
    (before : SameArenas first second) (after : SameArenas second third) :
    SameArenas first third :=
  ⟨after.types.trans before.types, after.bindings.trans before.bindings,
    after.functions.trans before.functions⟩

theorem SameArenas.kept {before after : Interpreter}
    (same : SameArenas before after) : ArenasKept before after :=
  ⟨same.types, same.bindings ▸ .refl _ _, same.functions ▸ List.prefix_rfl⟩

/-- A value that can be called with a number of arguments. -/
def Value.Callable (functions : List Function) (arity : Nat)
    (returnType : Option ResolvedType) : Value → Prop
  | .function handle => ∃ function, functions[handle]? = some function ∧
      function.parameters.length = arity ∧ function.returnType = returnType
  | .builtin helper => helper.arity = arity ∧ returnType = none
  | _ => False

/-- A binding is what the symbol of its name says. -/
def Symbol.Binds (functions : List Function) (binding : Binding) :
    Symbol → Prop
  | .variable annotated | .parameter annotated =>
      binding.mutable = true ∧ binding.annotated = annotated
  | .loopVariable => binding.mutable = true ∧ binding.annotated = none
  | .function arity _ returnType => binding.mutable = false ∧
      ∃ callable, binding.value = some callable ∧
        callable.Callable functions arity returnType
  | .builtin => binding.mutable = false ∧ binding.value = some .print

def Symbol.At (state : Interpreter) (symbol : Symbol) (slot : Nat) : Prop :=
  ∃ binding, state.bindings[slot]? = some binding ∧
    symbol.Binds state.functions binding

/-- A level of an environment has the names of a scope. -/
def Scope.Matches (state : Interpreter) (scope : Scope)
    (level : NameMap Nat) : Prop :=
  ∀ name, Option.Rel (Symbol.At state) (NameMap.get? scope.symbols name)
    (NameMap.get? level name)

/-- An environment has the names that the analyzer knows, level by level. -/
structure Agrees (static : Static) (env : Environment)
    (state : Interpreter) : Prop where
  types : state.types.definitions = static.types.definitions
  scopes : List.Forall₂ (Scope.Matches state) static.scopes env

theorem Value.Callable.keep {before after : List Function} {arity : Nat}
    {returnType : Option ResolvedType} {value : Value}
    (callable : value.Callable before arity returnType)
    (kept : before <+: after) : value.Callable after arity returnType := by
  cases value with
  | function handle =>
      obtain ⟨function, found, rest⟩ := callable
      obtain ⟨more, rfl⟩ := kept
      have inside := (List.getElem?_eq_some_iff.mp found).1
      exact ⟨function, by rw [List.getElem?_append_left inside, found], rest⟩
  | builtin helper => exact callable
  | _ => cases callable

theorem Value.Callable.unique {functions : List Function}
    {arity other : Nat} {returnType otherType : Option ResolvedType}
    {value : Value} (callable : value.Callable functions arity returnType)
    (again : value.Callable functions other otherType) : arity = other := by
  cases value with
  | function handle =>
      obtain ⟨first, atFirst, counted, _⟩ := callable
      obtain ⟨second, atSecond, countedAgain, _⟩ := again
      cases atFirst.symm.trans atSecond
      exact counted.symm.trans countedAgain
  | builtin helper => exact callable.1.symm.trans again.1
  | _ => cases callable

theorem Symbol.At.keep {before after : Interpreter} {symbol : Symbol}
    {slot : Nat} (bound : symbol.At before slot)
    (kept : ArenasKept before after) : symbol.At after slot := by
  obtain ⟨binding, found, binds⟩ := bound
  obtain ⟨later, atLater, same⟩ := kept.bindings slot binding found
  refine ⟨later, atLater, ?_⟩
  cases symbol with
  | «variable» annotated =>
      exact ⟨same.mutable.trans binds.1, same.annotated.trans binds.2⟩
  | parameter annotated =>
      exact ⟨same.mutable.trans binds.1, same.annotated.trans binds.2⟩
  | loopVariable =>
      exact ⟨same.mutable.trans binds.1, same.annotated.trans binds.2⟩
  | function arity parameters returnType =>
      obtain ⟨immutable, callable, stored, calls⟩ := binds
      have value := same.immutable immutable (by simp [stored])
      exact ⟨same.mutable.trans immutable, callable, value.trans stored,
        calls.keep kept.functions⟩
  | builtin =>
      obtain ⟨immutable, stored⟩ := binds
      have value := same.immutable immutable (by simp [stored])
      exact ⟨same.mutable.trans immutable, value.trans stored⟩

theorem Scope.Matches.keep {before after : Interpreter} {scope : Scope}
    {level : NameMap Nat} (fits : scope.Matches before level)
    (kept : ArenasKept before after) : scope.Matches after level :=
  fun name => optionRel_mono (fits name) fun _ _ bound => bound.keep kept

theorem Agrees.keep {static : Static} {env : Environment}
    {before after : Interpreter} (fits : Agrees static env before)
    (kept : ArenasKept before after) : Agrees static env after :=
  ⟨(congrArg TypeRegistry.definitions kept.types).trans fits.types,
    fits.scopes.imp fun _ _ level => level.keep kept⟩

/-- The analyzer and the interpreter resolve names alike. -/
theorem Agrees.resolve {static : Static} {env : Environment}
    {state : Interpreter} (fits : Agrees static env state) (name : String) :
    Option.Rel (Symbol.At state) (static.scopes.resolve name)
      (env.resolve name) := by
  obtain ⟨_, scopes⟩ := fits
  generalize static.scopes = levels at scopes
  induction scopes with
  | nil => exact .none
  | @cons scope level outer env first rest induction =>
      have here := first name
      cases found : NameMap.get? scope.symbols name with
      | none =>
          rw [found] at here
          cases bound : NameMap.get? level name with
          | some slot => simp [bound] at here
          | none =>
              simpa [Scopes.resolve, Scopes.resolveWithDepth,
                Environment.resolve, found, bound] using induction
      | some symbol =>
          rw [found] at here
          cases bound : NameMap.get? level name with
          | none => simp [bound] at here
          | some slot =>
              rw [bound] at here
              simpa [Scopes.resolve, Scopes.resolveWithDepth,
                Environment.resolve, found, bound] using here

theorem Agrees.enter {static : Static} {env : Environment}
    {state : Interpreter} (fits : Agrees static env state) (point : Point)
    {inner : Static} (types : inner.types = static.types)
    (scopes : inner.scopes = ⟨point, []⟩ :: static.scopes) :
    Agrees inner ([] :: env) state := by
  refine ⟨fits.types.trans (by rw [types]), ?_⟩
  rw [scopes]
  exact .cons (fun _ => .none) fits.scopes

/-- A name is declared in both. -/
theorem Agrees.declare {static : Static} {level : NameMap Nat}
    {outer : Environment} {state : Interpreter}
    (fits : Agrees static (level :: outer) state) {name : String}
    {symbol : Symbol} {slot : Nat} {scopes : Scopes}
    (declared : static.scopes.declare name symbol = some scopes)
    (bound : symbol.At state slot) :
    Agrees (static.declared name symbol)
      (NameMap.insert level name slot :: outer) state := by
  have after : static.declared name symbol =
      { static with scopes := scopes } := by
    simp [Static.declared, declared]
  rw [after]
  refine ⟨fits.types, ?_⟩
  have levels := fits.scopes
  revert declared
  cases known : static.scopes with
  | nil => simp [Scopes.declare]
  | cons scope rest =>
      rw [known] at levels
      obtain ⟨first, others⟩ := List.forall₂_cons.mp levels
      cases found : NameMap.get? scope.symbols name with
      | some other => simp [Scopes.declare, found]
      | none =>
          intro declared
          simp only [Scopes.declare, found, Option.some.injEq] at declared
          subst declared
          refine .cons (fun other => ?_) others
          simp only [NameMap.get?_insert]
          by_cases same : other = name
          · simpa [same] using bound
          · simpa [same] using first other

/-- The type of an annotation is the same for both. -/
theorem Agrees.annotation {static : Static} {env : Environment}
    {state : Interpreter} (fits : Agrees static env state)
    (annotated : Option TypeAnnotation) :
    (annotated.bind fun a => state.types.resolve a.name) =
      Analyzer.annotationType static annotated := by
  unfold Analyzer.annotationType TypeRegistry.resolve
  rw [fits.types]

end NetLang
