import NetLang.Semantic.Scope

/-!
# State of the analyzer

The part of the state that describes where the analysis stands is kept apart
from what it has collected.  Errors and visits carry the program point they
are about; points are not part of a semantic error.
-/

namespace NetLang

inductive SemanticErrorKind where
  | undefinedName | duplicateDeclaration | returnOutsideFunction
  | immutableAssignment | invalidAssignmentTarget | argumentCount
  | capturedAssignment | returnAcrossParallel | breakOutsideLoop
  | continueOutsideLoop | breakAcrossParallel | unknownType | typeMismatch
  | invalidTypeDeclaration | invalidConstructor
deriving DecidableEq, Repr

structure SemanticError where
  kind : SemanticErrorKind
  message : String
  context : List String
  span : Option Span
deriving DecidableEq, Repr

/-- A semantic error and the point of the node it was found at. -/
structure Report where
  point : Point
  error : SemanticError
deriving DecidableEq, Repr

inductive LoopKind where
  | serial | parallel
deriving DecidableEq, Repr

/-- Where the analysis stands.  Innermost loops and boundaries come first. -/
structure Static where
  types : TypeRegistry
  returnType : Option ResolvedType
  loops : List LoopKind
  scopes : Scopes
  functionDepth : Nat
  parallelBoundaries : List (Nat × Nat)
deriving Repr

inductive Node where
  | expression (expression : Expr)
  | statement (statement : Stmt)
deriving Repr

/-- A node that was analyzed, and what was known there. -/
structure Visit where
  point : Point
  node : Node
  static : Static
deriving Repr

structure Analyzer extends Static where
  declaredTypes : List String
  currentSpan : Option Span
  context : List String
  reports : List Report
  visits : List Visit
  panicked : Bool
deriving Repr

namespace Analyzer

def new (types : TypeRegistry) : Analyzer where
  types := types
  returnType := none
  loops := []
  scopes := Scopes.new
  functionDepth := 0
  parallelBoundaries := []
  declaredTypes := []
  currentSpan := none
  context := ["program"]
  reports := []
  visits := []
  panicked := false

def errors (analyzer : Analyzer) : List SemanticError :=
  analyzer.reports.map Report.error

def report (analyzer : Analyzer) (point : Point) (kind : SemanticErrorKind)
    (message : String) : Analyzer :=
  { analyzer with
    reports := analyzer.reports ++
      [⟨point, kind, message, analyzer.context, analyzer.currentSpan⟩] }

def visit (analyzer : Analyzer) (point : Point) (node : Node) : Analyzer :=
  { analyzer with
    visits := analyzer.visits ++ [⟨point, node, analyzer.toStatic⟩] }

/-- A read that fails is a panic. -/
def reading {α : Type} (analyzer : Analyzer) (read : Read α) : Analyzer :=
  { analyzer with panicked := analyzer.panicked || read.failed }

/-- Analyze at a location, if one is given. -/
def located (analyzer : Analyzer) (span : Option Span)
    (analysis : Analyzer → Analyzer) : Analyzer :=
  { analysis { analyzer with
      currentSpan := span.or analyzer.currentSpan } with
    currentSpan := analyzer.currentSpan }

def inContext (analyzer : Analyzer) (label : String)
    (analysis : Analyzer → Analyzer) : Analyzer :=
  let after := analysis
    { analyzer with context := analyzer.context ++ [label] }
  { after with context := after.context.dropLast }

/-- Analyze in a new scope.  Removing the built-in scope is a panic. -/
def inScope (analyzer : Analyzer) (point : Point)
    (analysis : Analyzer → Analyzer) : Analyzer :=
  let after := analysis
    { analyzer with scopes := ⟨point, []⟩ :: analyzer.scopes }
  { after with
    scopes := after.scopes.tail
    panicked := after.panicked || after.scopes.length ≤ 1 }

def declare (analyzer : Analyzer) (point : Point) (name : String)
    (symbol : Symbol) : Analyzer :=
  match analyzer.scopes.declare name symbol with
  | some scopes => { analyzer with scopes := scopes }
  | none => analyzer.report point .duplicateDeclaration
      s!"duplicate declaration of '{name}' in the same scope"

/-- Report a name that does not resolve. -/
def resolve (analyzer : Analyzer) (point : Point) (name : String) :
    Analyzer :=
  match analyzer.scopes.resolve name with
  | some _ => analyzer
  | none => analyzer.report point .undefinedName s!"undefined name '{name}'"

/-- The type of an annotation, if there is one and it resolves. -/
def annotationType (static : Static) (annotated : Option TypeAnnotation) :
    Option ResolvedType :=
  annotated.bind fun a => static.types.resolve a.name

/-- Report an annotation that does not resolve, at its own location. -/
def resolveType (analyzer : Analyzer) (point : Point)
    (annotated : TypeAnnotation) : Analyzer :=
  match analyzer.types.resolve annotated.name with
  | some _ => analyzer
  | none => analyzer.located annotated.span fun analyzer =>
      analyzer.report point .unknownType
        s!"unknown type '{annotated.name}'"

def resolveAnnotated (analyzer : Analyzer) (point : Point)
    (annotated : Option TypeAnnotation) : Analyzer :=
  match annotated with
  | some annotated => analyzer.resolveType point annotated
  | none => analyzer

end Analyzer

end NetLang
