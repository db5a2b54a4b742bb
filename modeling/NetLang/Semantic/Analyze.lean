import NetLang.Semantic.Types

/-!
# The analysis pass

Lexical name resolution, structural checks and optional type contracts, in
one walk over the syntax tree in source order.
-/

namespace NetLang

namespace Analyzer

/-- The fields of a constructed type, if the name is that of one. -/
def constructedFields (static : Static) (name : String) :
    Read (Option (List TypeField)) :=
  match static.types.resolve name with
  | some (.named id) => do
      let fields ← static.types.fields id
      pure (some fields)
  | _ => pure none

def constructorType (analyzer : Analyzer) (point : Point)
    (name : String) (definition : Option (List TypeField)) : Analyzer :=
  match definition with
  | some _ => analyzer
  | none => analyzer.report point .invalidConstructor
      s!"'{name}' is not a declared named type"

/-- The checks of one field of a constructor, after its value. -/
def constructorField (analyzer : Analyzer) (point : Point) (name : String)
    (definition : Option (List TypeField)) (seen : List String)
    (key : String) (value : Expr) : Analyzer :=
  let analyzer :=
    if seen.contains key then
      analyzer.report point .invalidConstructor
        s!"duplicate constructor field '{key}'"
    else analyzer
  match definition with
  | none => analyzer
  | some definition =>
      match definition.find? fun field => field.name == key with
      | some field => analyzer.checkExpected point value
          (analyzer.types.resolve field.annotated.name)
      | none => analyzer.report point .invalidConstructor
          s!"type '{name}' has no field '{key}'"

/-- The declared fields that a constructor does not give. -/
def missingFields (point : Point) (name : String) (given : List String) :
    List TypeField → Analyzer → Analyzer
  | [], analyzer => analyzer
  | field :: rest, analyzer =>
      let analyzer :=
        if given.contains field.name then analyzer
        else analyzer.report point .invalidConstructor
          s!"missing field '{field.name}' for type '{name}'"
      missingFields point name given rest analyzer

def isImmutable (static : Static) (name : String) : Bool :=
  (static.scopes.resolve name).any fun symbol => !symbol.isMutable

def checkMutable (analyzer : Analyzer) (point : Point) (name : String) :
    Analyzer :=
  if isImmutable analyzer.toStatic name then
    analyzer.report point .immutableAssignment
      s!"cannot assign to function '{name}'"
  else analyzer

/-- Report a target that is neither a variable nor a property or an index. -/
def checkTarget (analyzer : Analyzer) (point : Point) (target : Expr) :
    Analyzer :=
  match target with
  | .identifier _ | .property _ _ | .index _ _ => analyzer
  | _ => analyzer.report point .invalidAssignmentTarget
      "assignment target must be a variable, property, or index"

/-- The root of an assignment path. -/
def rootOf : Expr → Expr
  | .located _ inner => rootOf inner
  | .property object _ => rootOf object
  | .index object _ => rootOf object
  | root => root

/-- The name of a mutable variable that was declared outside of the innermost
parallel body. -/
def capturedRoot (static : Static) (target : Expr) : Option String :=
  match rootOf target, static.parallelBoundaries with
  | .identifier name, (boundary, _) :: _ =>
      match static.scopes.resolveWithDepth name with
      | some (depth, symbol) =>
          if depth < boundary ∧ symbol.isMutable then some name else none
      | none => none
  | _, _ => none

def checkParallelAssignment (analyzer : Analyzer) (point : Point)
    (target : Expr) : Analyzer :=
  match capturedRoot analyzer.toStatic target with
  | some name => analyzer.report point .capturedAssignment
      s!"cannot assign to read-only parallel capture '{name}'"
  | none => analyzer

/-- The type that the target of an assignment asks for. -/
def targetType (static : Static) (target : Expr) :
    Read (Option ResolvedType) :=
  match target with
  | .property _ _ | .index _ _ => memberType static target
  | .identifier name =>
      pure ((static.scopes.resolve name).bind Symbol.annotated)
  | _ => pure none

def calleeArity (static : Static) (callee : Expr) :
    Option (String × Nat) :=
  match callee with
  | .identifier name =>
      match static.scopes.resolve name with
      | some (.function arity _ _) => some (name, arity)
      | _ => none
  | _ => none

def calleeParameters (static : Static) (callee : Expr) :
    List (Option ResolvedType) :=
  match callee with
  | .identifier name =>
      match static.scopes.resolve name with
      | some (.function _ parameters _) => parameters
      | _ => []
  | _ => []

def checkArity (analyzer : Analyzer) (point : Point) (callee : Expr)
    (given : Nat) : Analyzer :=
  match calleeArity analyzer.toStatic callee with
  | some (name, arity) =>
      if arity ≠ given then
        analyzer.report point .argumentCount
          s!"function '{name}' expects {arity} argument(s), got {given}"
      else analyzer
  | none => analyzer

def checkArguments (point : Point) :
    List Expr → List (Option ResolvedType) → Analyzer → Analyzer
  | argument :: rest, expected :: parameters, analyzer =>
      checkArguments point rest parameters
        (analyzer.checkExpected point argument expected)
  | _, _, analyzer => analyzer

mutual

def expression (point : Point) : Expr → Analyzer → Analyzer
  | .located span inner, analyzer =>
      analyzer.located (some span) (expression point inner)
  | .construct name fields, analyzer =>
      let analyzer :=
        analyzer.visit point (.expression (.construct name fields))
      let constructed := constructedFields analyzer.toStatic name
      let analyzer := analyzer.reading constructed
      let definition := constructed.value
      let analyzer := analyzer.constructorType point name definition
      let analyzer :=
        constructorFields point name definition 0 fields [] analyzer
      missingFields point name (fields.map Prod.fst)
        (definition.getD []) analyzer
  | .connection transport address protocol, analyzer =>
      let analyzer := analyzer.visit point
        (.expression (.connection transport address protocol))
      expression (0 :: point) address analyzer
  | .send connection data destination, analyzer =>
      let analyzer := analyzer.visit point
        (.expression (.send connection data destination))
      let analyzer := expression (0 :: point) connection analyzer
      let analyzer := expression (1 :: point) data analyzer
      optional (2 :: point) destination analyzer
  | .receive connection, analyzer =>
      let analyzer :=
        analyzer.visit point (.expression (.receive connection))
      expression (0 :: point) connection analyzer
  | .request method url config, analyzer =>
      let analyzer :=
        analyzer.visit point (.expression (.request method url config))
      let analyzer := expression (0 :: point) url analyzer
      optional (1 :: point) config analyzer
  | .integer value, analyzer =>
      analyzer.visit point (.expression (.integer value))
  | .float value, analyzer =>
      analyzer.visit point (.expression (.float value))
  | .string value, analyzer =>
      analyzer.visit point (.expression (.string value))
  | .boolean value, analyzer =>
      analyzer.visit point (.expression (.boolean value))
  | .null, analyzer => analyzer.visit point (.expression .null)
  | .duration value, analyzer =>
      analyzer.visit point (.expression (.duration value))
  | .identifier name, analyzer =>
      let analyzer := analyzer.visit point (.expression (.identifier name))
      analyzer.resolve point name
  | .array values, analyzer =>
      let analyzer := analyzer.visit point (.expression (.array values))
      expressions point 0 values analyzer
  | .object fields, analyzer =>
      let analyzer := analyzer.visit point (.expression (.object fields))
      fieldValues point 0 fields analyzer
  | .unary operator operand, analyzer =>
      let analyzer :=
        analyzer.visit point (.expression (.unary operator operand))
      expression (0 :: point) operand analyzer
  | .binary left op right, analyzer =>
      let analyzer :=
        analyzer.visit point (.expression (.binary left op right))
      let analyzer := expression (0 :: point) left analyzer
      expression (1 :: point) right analyzer
  | .assignment target value, analyzer =>
      let analyzer :=
        analyzer.visit point (.expression (.assignment target value))
      let analyzer := analyzer.located target.span fun analyzer =>
        let analyzer :=
          match target.unspanned.identifier? with
          | some name =>
              (analyzer.resolve point name).checkMutable point name
          | none => expression (0 :: point) target
              (analyzer.checkTarget point target.unspanned)
        analyzer.checkParallelAssignment point target
      let analyzer := expression (1 :: point) value analyzer
      let expected := targetType analyzer.toStatic target.unspanned
      (analyzer.reading expected).checkExpected point value expected.value
  | .call callee arguments, analyzer =>
      let analyzer :=
        analyzer.visit point (.expression (.call callee arguments))
      let analyzer := expression (0 :: point) callee analyzer
      let analyzer :=
        analyzer.checkArity point callee.unspanned arguments.length
      let analyzer := expressions point 1 arguments analyzer
      checkArguments point arguments
        (calleeParameters analyzer.toStatic callee.unspanned) analyzer
  | .property object name, analyzer =>
      let analyzer :=
        analyzer.visit point (.expression (.property object name))
      let analyzer := expression (0 :: point) object analyzer
      analyzer.checkMember point object name
  | .index object index, analyzer =>
      let analyzer :=
        analyzer.visit point (.expression (.index object index))
      let analyzer := expression (0 :: point) object analyzer
      let analyzer := expression (1 :: point) index analyzer
      match index.unspanned.stringLiteral? with
      | some name => analyzer.checkMember point object name
      | none => analyzer

def optional (point : Point) : Option Expr → Analyzer → Analyzer
  | some value, analyzer => expression point value analyzer
  | none, analyzer => analyzer

def expressions (point : Point) :
    Nat → List Expr → Analyzer → Analyzer
  | _, [], analyzer => analyzer
  | i, value :: rest, analyzer =>
      expressions point (i + 1) rest (expression (i :: point) value analyzer)

def fieldValues (point : Point) :
    Nat → List (String × Expr) → Analyzer → Analyzer
  | _, [], analyzer => analyzer
  | i, (_, value) :: rest, analyzer =>
      fieldValues point (i + 1) rest (expression (i :: point) value analyzer)

def constructorFields (point : Point) (name : String)
    (definition : Option (List TypeField)) :
    Nat → List (String × Expr) → List String → Analyzer → Analyzer
  | _, [], _, analyzer => analyzer
  | i, (key, value) :: rest, seen, analyzer =>
      let analyzer := expression (i :: point) value analyzer
      let analyzer :=
        analyzer.constructorField point name definition seen key value
      constructorFields point name definition (i + 1) rest (key :: seen)
        analyzer

end

/-- The symbol of a function declaration. -/
def functionSymbol (static : Static) (parameters : List Parameter)
    (returnAnnotated : Option TypeAnnotation) : Symbol :=
  .function parameters.length
    (parameters.map fun parameter =>
      annotationType static parameter.annotated)
    (annotationType static returnAnnotated)

def resolveParameters (point : Point) :
    List Parameter → Analyzer → Analyzer
  | [], analyzer => analyzer
  | parameter :: rest, analyzer => resolveParameters point rest
      (analyzer.resolveAnnotated point parameter.annotated)

/-- Declare the function of a statement, if it declares one. -/
def hoistStatement (analyzer : Analyzer) (point : Point) (node : Stmt) :
    Analyzer :=
  match node.unspanned with
  | .function name parameters returnAnnotated _ =>
      let analyzer := resolveParameters point parameters analyzer
      let analyzer := analyzer.resolveAnnotated point returnAnnotated
      analyzer.declare point name
        (functionSymbol analyzer.toStatic parameters returnAnnotated)
  | _ => analyzer

def statementLabel (i : Nat) : String :=
  s!"statement {i + 1}"

/-- Hoist only the function declarations of a list. -/
def hoist (point : Point) :
    Nat → List Stmt → Analyzer → Analyzer
  | _, [], analyzer => analyzer
  | i, node :: rest, analyzer =>
      hoist point (i + 1) rest <|
        analyzer.located node.span fun analyzer =>
          analyzer.inContext (statementLabel i) fun analyzer =>
            analyzer.hoistStatement (i :: point) node

def declareParameters (point : Point) :
    List Parameter → Analyzer → Analyzer
  | [], analyzer => analyzer
  | parameter :: rest, analyzer =>
      declareParameters point rest (analyzer.declare point parameter.name
        (.parameter (annotationType analyzer.toStatic parameter.annotated)))

/-- Analyze the body of a function.  A function cannot transfer control to a
caller's loop. -/
def inFunction (analyzer : Analyzer)
    (returnAnnotated : Option TypeAnnotation)
    (analysis : Analyzer → Analyzer) : Analyzer :=
  let after := analysis { analyzer with
    functionDepth := analyzer.functionDepth + 1
    loops := []
    returnType := annotationType analyzer.toStatic returnAnnotated }
  { after with
    loops := analyzer.loops
    returnType := analyzer.returnType
    functionDepth := after.functionDepth - 1 }

def inLoop (analyzer : Analyzer) (kind : LoopKind)
    (analysis : Analyzer → Analyzer) : Analyzer :=
  let after := analysis { analyzer with loops := kind :: analyzer.loops }
  { after with loops := after.loops.tail }

/-- A parallel body is a loop body behind a new boundary. -/
def inParallel (analyzer : Analyzer) (analysis : Analyzer → Analyzer) :
    Analyzer :=
  let after := analyzer.inLoop .parallel fun analyzer =>
    analysis { analyzer with
      parallelBoundaries :=
        (analyzer.scopes.depth, analyzer.functionDepth) ::
          analyzer.parallelBoundaries }
  { after with parallelBoundaries := after.parallelBoundaries.tail }

def checkBreak (analyzer : Analyzer) (point : Point) : Analyzer :=
  match analyzer.loops with
  | .serial :: _ => analyzer
  | .parallel :: _ => analyzer.report point .breakAcrossParallel
      ("break cannot exit a parallel iteration; " ++
        "use continue to finish this iteration")
  | [] => analyzer.report point .breakOutsideLoop
      "break is only allowed inside a serial loop"

def checkContinue (analyzer : Analyzer) (point : Point) : Analyzer :=
  match analyzer.loops with
  | _ :: _ => analyzer
  | [] => analyzer.report point .continueOutsideLoop
      "continue is only allowed inside a loop"

def crossesParallel (static : Static) : Bool :=
  match static.parallelBoundaries with
  | (_, depth) :: _ => depth == static.functionDepth
  | [] => false

def checkReturn (analyzer : Analyzer) (point : Point) : Analyzer :=
  if crossesParallel analyzer.toStatic then
    analyzer.report point .returnAcrossParallel
      ("return cannot exit a parallel iteration; " ++
        "return from a called function instead")
  else if analyzer.functionDepth = 0 then
    analyzer.report point .returnOutsideFunction
      "return is only allowed inside a function"
  else analyzer

/-- How a statement is reached: from a list of statements, or as a body whose
scope has been entered.  A body that is not a block is a list of one. -/
inductive Mode where
  | listed | body
deriving DecidableEq, Repr

/-- Analyze a statement that is not a block. -/
def reached (mode : Mode) (point : Point) (node : Stmt)
    (analysis : Point → Analyzer → Analyzer) (analyzer : Analyzer) :
    Analyzer :=
  match mode with
  | .listed => analysis point (analyzer.visit point (.statement node))
  | .body =>
      (hoist point 0 [node] analyzer).inContext (statementLabel 0)
        fun analyzer => analysis (0 :: point)
          (analyzer.visit (0 :: point) (.statement node))

mutual

def statement (mode : Mode) (point : Point) : Stmt → Analyzer → Analyzer
  | .located span inner, analyzer =>
      analyzer.located (some span) (statement mode point inner)
  | .block list, analyzer =>
      match mode with
      | .listed =>
          (analyzer.visit point (.statement (.block list))).inContext "block"
            fun analyzer => analyzer.inScope (1 :: point) fun analyzer =>
              listed (1 :: point) 0 list (hoist (1 :: point) 0 list analyzer)
      | .body => listed point 0 list (hoist point 0 list analyzer)
  | .type name fields, analyzer =>
      reached mode point (.type name fields) (fun point analyzer =>
        analyzer.typeDeclaration point name fields) analyzer
  | .break, analyzer =>
      reached mode point .break
        (fun point analyzer => analyzer.checkBreak point) analyzer
  | .continue, analyzer =>
      reached mode point .continue
        (fun point analyzer => analyzer.checkContinue point) analyzer
  | .let name annotated value, analyzer =>
      reached mode point (.let name annotated value) (fun point analyzer =>
        let analyzer := expression (0 :: point) value analyzer
        let analyzer := analyzer.resolveAnnotated point annotated
        let ty := annotationType analyzer.toStatic annotated
        let analyzer := analyzer.checkExpected point value ty
        analyzer.declare point name (.variable ty)) analyzer
  | .expression value, analyzer =>
      reached mode point (.expression value) (fun point analyzer =>
        expression (0 :: point) value analyzer) analyzer
  | .function name parameters returnAnnotated body, analyzer =>
      reached mode point (.function name parameters returnAnnotated body)
        (fun point analyzer =>
          analyzer.inContext s!"function '{name}'" fun analyzer =>
            analyzer.inScope point fun analyzer =>
              analyzer.inFunction returnAnnotated fun analyzer =>
                statement .body (0 :: point) body
                  (declareParameters point parameters analyzer)) analyzer
  | .return value, analyzer =>
      reached mode point (.return value) (fun point analyzer =>
        let analyzer := analyzer.checkReturn point
        let analyzer := optional (0 :: point) value analyzer
        analyzer.checkExpected point (value.getD .null) analyzer.returnType)
        analyzer
  | .if test thenBranch elseBranch, analyzer =>
      reached mode point (.if test thenBranch elseBranch)
        (fun point analyzer =>
          let analyzer := expression (0 :: point) test analyzer
          let analyzer := analyzer.inContext "if branch" fun analyzer =>
            analyzer.inScope (1 :: point)
              (statement .body (1 :: point) thenBranch)
          otherwise point elseBranch analyzer) analyzer
  | .while test body, analyzer =>
      reached mode point (.while test body) (fun point analyzer =>
        let analyzer := expression (0 :: point) test analyzer
        analyzer.inLoop .serial fun analyzer =>
          analyzer.inContext "while body" fun analyzer =>
            analyzer.inScope (1 :: point)
              (statement .body (1 :: point) body)) analyzer
  | .for variableName iterable body, analyzer =>
      reached mode point (.for variableName iterable body)
        (fun point analyzer =>
          let analyzer := expression (0 :: point) iterable analyzer
          analyzer.inContext s!"for '{variableName}'" fun analyzer =>
            analyzer.inLoop .serial fun analyzer =>
              analyzer.inScope (1 :: point) fun analyzer =>
                statement .body (1 :: point) body
                  (analyzer.declare point variableName .loopVariable))
        analyzer
  | .parallel variableName iterable body, analyzer =>
      reached mode point (.parallel variableName iterable body)
        (fun point analyzer =>
          let analyzer := expression (0 :: point) iterable analyzer
          analyzer.inContext s!"parallel '{variableName}'" fun analyzer =>
            analyzer.inParallel fun analyzer =>
              analyzer.inScope (1 :: point) fun analyzer =>
                statement .body (1 :: point) body
                  (analyzer.declare point variableName .loopVariable))
        analyzer
  | .match value arms, analyzer =>
      reached mode point (.match value arms) (fun point analyzer =>
        matchArms point 1 arms (expression (0 :: point) value analyzer))
        analyzer

/-- The statements of a list, whose functions have been hoisted. -/
def listed (point : Point) : Nat → List Stmt → Analyzer → Analyzer
  | _, [], analyzer => analyzer
  | i, node :: rest, analyzer =>
      listed point (i + 1) rest <|
        analyzer.inContext (statementLabel i)
          (statement .listed (i :: point) node)

def otherwise (point : Point) : Option Stmt → Analyzer → Analyzer
  | none, analyzer => analyzer
  | some branch, analyzer =>
      analyzer.inContext "else branch" fun analyzer =>
        analyzer.inScope (2 :: point) (statement .body (2 :: point) branch)

def matchArms (point : Point) :
    Nat → List (Pattern × Stmt) → Analyzer → Analyzer
  | _, [], analyzer => analyzer
  | i, (_, body) :: rest, analyzer =>
      matchArms point (i + 1) rest <|
        analyzer.inContext s!"match arm {i}" fun analyzer =>
          analyzer.inScope (i :: point) (statement .body (i :: point) body)

end

def statements (point : Point) (list : List Stmt) (analyzer : Analyzer) :
    Analyzer :=
  listed point 0 list (hoist point 0 list analyzer)

/-- The body of a function or a loop shares the scope that was entered. -/
def bodyInCurrentScope (point : Point) (body : Stmt) (analyzer : Analyzer) :
    Analyzer :=
  statement .body point body analyzer

@[simp] theorem bodyInCurrentScope_located (point : Point) (span : Span)
    (body : Stmt) (analyzer : Analyzer) :
    bodyInCurrentScope point (.located span body) analyzer =
      analyzer.located (some span) (bodyInCurrentScope point body) := by
  rw [bodyInCurrentScope, statement]
  rfl

@[simp] theorem bodyInCurrentScope_block (point : Point) (list : List Stmt)
    (analyzer : Analyzer) :
    bodyInCurrentScope point (.block list) analyzer =
      statements point list analyzer := by
  rw [bodyInCurrentScope, statement]
  rfl

/-- A body that is neither located nor a block is a list of one statement. -/
theorem bodyInCurrentScope_single (point : Point) (body : Stmt)
    (analyzer : Analyzer) (bare : body.unspanned = body)
    (single : ∀ list, body ≠ .block list) :
    bodyInCurrentScope point body analyzer =
      statements point [body] analyzer := by
  cases body with
  | located span inner =>
      exact absurd bare (Stmt.unspanned_ne_located _ _ _)
  | block list => exact absurd rfl (single list)
  | _ => simp only [bodyInCurrentScope, statements, listed, statement, reached]

end Analyzer

/-- The analyzer after the walk over a program. -/
def analysis (identity : Nat) (program : Program) : Analyzer :=
  (Analyzer.new (TypeRegistry.new identity program)).inScope []
    (Analyzer.statements [] program.statements)

/-- All semantic errors of a program, in the order of their discovery. -/
def analyze (program : Program) : List SemanticError :=
  (analysis 0 program).errors

end NetLang
