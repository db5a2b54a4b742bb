import NetLang.Interpreter.State

/-!
# Lexical scopes of the analyzer
-/

namespace NetLang

inductive Symbol where
  | variable (annotated : Option ResolvedType)
  | parameter (annotated : Option ResolvedType)
  | loopVariable
  | function (arity : Nat) (parameters : List (Option ResolvedType))
      (returnType : Option ResolvedType)
  | builtin
deriving DecidableEq, Repr

namespace Symbol

def isMutable : Symbol → Bool
  | .variable _ | .parameter _ | .loopVariable => true
  | .function _ _ _ | .builtin => false

/-- The annotation of a variable or a parameter. -/
def annotated : Symbol → Option ResolvedType
  | .variable annotated | .parameter annotated => annotated
  | _ => none

end Symbol

/-- One lexical scope; `origin` is the point of the node that opened it. -/
structure Scope where
  origin : Point
  symbols : NameMap Symbol
deriving Repr

/-- The innermost scope comes first. -/
abbrev Scopes := List Scope

namespace Scopes

def builtins : NameMap Symbol :=
  ("print", .builtin) :: Builtin.all.map fun builtin =>
    (builtin.name, .function builtin.arity [] none)

def new : Scopes :=
  [⟨[], builtins⟩]

def depth (scopes : Scopes) : Nat :=
  scopes.length

/-- The level of a name, counted from the outermost scope, and its symbol. -/
def resolveWithDepth : Scopes → String → Option (Nat × Symbol)
  | [], _ => none
  | scope :: outer, name =>
      match NameMap.get? scope.symbols name with
      | some symbol => some (outer.length, symbol)
      | none => resolveWithDepth outer name

def resolve (scopes : Scopes) (name : String) : Option Symbol :=
  (scopes.resolveWithDepth name).map Prod.snd

/-- Keep the first symbol on a duplicate. -/
def declare (scopes : Scopes) (name : String) (symbol : Symbol) :
    Option Scopes :=
  match scopes with
  | [] => none
  | scope :: outer =>
      match NameMap.get? scope.symbols name with
      | some _ => none
      | none => some
          (⟨scope.origin, NameMap.insert scope.symbols name symbol⟩ :: outer)

end Scopes

end NetLang
