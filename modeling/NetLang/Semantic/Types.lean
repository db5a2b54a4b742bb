import NetLang.Semantic.Analyzer

/-!
# Static types

Only results that are known without executing code have a static type; every
other result is checked at run time.
-/

namespace NetLang

/-- The declared type name of a field, if the object has a named type. -/
def fieldType (types : TypeRegistry) (object : Option String)
    (name : String) : Read (Option String) :=
  match object with
  | none => pure none
  | some object =>
      match types.resolve object with
      | some (.named id) => do
          let fields ← types.fields id
          let field := fields.find? fun field => field.name == name
          pure (field.map fun field => field.annotated.name)
      | _ => pure none

/-- The name of a type that is known. -/
def typeName (types : TypeRegistry) (ty : ResolvedType) :
    Read (Option String) := do
  let name ← types.name ty
  pure (some name)

def identifierType (static : Static) (name : String) :
    Read (Option String) :=
  match static.scopes.resolve name with
  | some (.variable (some ty)) | some (.parameter (some ty)) =>
      typeName static.types ty
  | some (.function _ _ _) | some .builtin => pure (some "function")
  | _ => pure none

def callType (static : Static) (callee : Expr) : Read (Option String) :=
  match callee with
  | .identifier name =>
      match static.scopes.resolve name with
      | some (.function _ _ (some ty)) => typeName static.types ty
      | _ => pure none
  | _ => pure none

/-- The type of an arithmetic operator applied to known types. -/
def arithmeticType (op : BinaryOp) (left right : String) : Option String :=
  if op = .add ∧ (left = "string" ∨ right = "string") then some "string"
  else if op = .add ∧ left = "bytes" ∧ right = "bytes" then some "bytes"
  else if (op = .add ∨ op = .subtract) ∧ left = "duration" ∧
      right = "duration" then
    some "duration"
  else if left = "int" ∧ right = "int" then some "int"
  else if (left = "int" ∨ left = "float") ∧
      (right = "int" ∨ right = "float") then
    some "float"
  else none

def BinaryOp.isBoolean : BinaryOp → Bool
  | .equal | .notEqual | .less | .lessEqual | .greater | .greaterEqual
  | .and | .or => true
  | _ => false

def Expr.stringLiteral? : Expr → Option String
  | .string value => some value
  | _ => none

def Expr.identifier? : Expr → Option String
  | .identifier name => some name
  | _ => none

def knownType (static : Static) : Expr → Read (Option String)
  | .located _ inner => knownType static inner
  | .property object name => do
      let object ← knownType static object
      fieldType static.types object name
  | .index object index =>
      match index.unspanned.stringLiteral? with
      | some name => do
          let object ← knownType static object
          fieldType static.types object name
      | none => pure none
  | .construct name _ =>
      match static.types.resolve name with
      | some ty => typeName static.types ty
      | none => pure none
  | .integer _ => pure (some "int")
  | .float _ => pure (some "float")
  | .boolean _ => pure (some "bool")
  | .string _ => pure (some "string")
  | .duration _ => pure (some "duration")
  | .null => pure (some "null")
  | .array _ => pure (some "array")
  | .object _ => pure (some "object")
  | .identifier name => identifierType static name
  | .assignment _ value => knownType static value
  | .call callee _ => callType static callee.unspanned
  | .unary .not _ => pure (some "bool")
  | .unary .negate expression => do
      let known ← knownType static expression
      pure (known.filter fun ty => ty == "int" || ty == "float")
  | .binary left op right =>
      if op.isBoolean then pure (some "bool")
      else do
        let left ← knownType static left
        match left with
        | none => pure none
        | some left => do
            let right ← knownType static right
            pure (right.bind (arithmeticType op left))
  | .connection _ _ _ | .send _ _ _ | .receive _ | .request _ _ _ =>
      pure none

namespace Analyzer

/-- The named type of a target's member, if it is known. -/
def memberType (static : Static) (target : Expr) :
    Read (Option ResolvedType) := do
  let known ← knownType static target
  pure (known.bind static.types.resolve)

def checkType (analyzer : Analyzer) (point : Point) (expression : Expr)
    (expected : ResolvedType) : Analyzer :=
  let known := knownType analyzer.toStatic expression
  let analyzer := analyzer.reading known
  match known.value with
  | none => analyzer
  | some actual =>
      let name := analyzer.types.name expected
      let analyzer := analyzer.reading name
      if actual ≠ name.value then
        analyzer.located expression.span fun analyzer =>
          analyzer.report point .typeMismatch
            s!"expected {name.value}, got {actual}"
      else analyzer

/-- Check against a type that may be unknown. -/
def checkExpected (analyzer : Analyzer) (point : Point) (expression : Expr)
    (expected : Option ResolvedType) : Analyzer :=
  match expected with
  | some expected => analyzer.checkType point expression expected
  | none => analyzer

/-- The known named type that lacks a member. -/
def lacksMember (static : Static) (object : Expr) (name : String) :
    Read (Option String) := do
  let known ← knownType static object
  match known with
  | none => pure none
  | some known =>
      match static.types.resolve known with
      | some (.named id) => do
          let fields ← static.types.fields id
          pure (if fields.any fun field => field.name == name then none
            else some known)
      | _ => pure none

def checkMember (analyzer : Analyzer) (point : Point) (object : Expr)
    (name : String) : Analyzer :=
  let lacking := lacksMember analyzer.toStatic object name
  let analyzer := analyzer.reading lacking
  match lacking.value with
  | some known => analyzer.report point .typeMismatch
      s!"type '{known}' has no field '{name}'"
  | none => analyzer

def isReservedType (name : String) : Bool :=
  (PrimitiveType.fromName name).isSome ||
    ["array", "object", "function", "null", "connection"].contains name

/-- Fields of a type declaration, with the names seen before. -/
def typeFields (point : Point) (name : String) :
    List TypeField → List String → Analyzer → Analyzer
  | [], _, analyzer => analyzer
  | field :: rest, seen, analyzer =>
      let analyzer :=
        if seen.contains field.name then
          analyzer.report point .duplicateDeclaration
            s!"duplicate field '{field.name}' in type '{name}'"
        else analyzer
      let analyzer := analyzer.resolveType point field.annotated
      typeFields point name rest (field.name :: seen) analyzer

def typeDeclaration (analyzer : Analyzer) (point : Point) (name : String)
    (fields : List TypeField) : Analyzer :=
  let analyzer :=
    if analyzer.scopes.depth ≠ 2 ∨ analyzer.functionDepth ≠ 0 then
      analyzer.report point .invalidTypeDeclaration
        "type declarations are only supported at top level"
    else analyzer
  let analyzer :=
    if isReservedType name then
      analyzer.report point .invalidTypeDeclaration
        s!"type name '{name}' is reserved"
    else analyzer
  let analyzer :=
    if analyzer.declaredTypes.contains name then
      analyzer.report point .duplicateDeclaration
        s!"duplicate type declaration '{name}'"
    else { analyzer with declaredTypes := name :: analyzer.declaredTypes }
  let analyzer := typeFields point name fields [] analyzer
  let cycle := analyzer.types.hasRequiredCycle name
  let analyzer := analyzer.reading cycle
  if cycle.value then
    analyzer.report point .invalidTypeDeclaration
      (s!"type '{name}' has a cycle of required fields; " ++
        "recursive fields are not supported yet")
  else analyzer

end Analyzer

end NetLang
